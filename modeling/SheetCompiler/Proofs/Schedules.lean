import SheetCompiler.Proofs.FileConversion
import SheetCompiler.Proofs.Moves

/-!
# The schedule of a batch does not matter

When the outputs of a plan are different files and none of them is an input (`Plan.Separate`), the
files of a batch do not meet: what one of them reads no other one writes, and what one of them
writes no other one does.  So each file takes the way it would take by itself.  This is what
`Conversion.Sound` says of a batch under way, together with what can be told from it about the tree
and the tally; every move keeps it (`Sound.move`), and so does every schedule (`Sound.run`).

A finished batch is determined by this (`Sound.eq_of_isFinished`).  One of the schedules converts
the files one after another, and therefore all of them come to what that one comes to
(`finished_eq_convertAll`).

Why a lookup fails may change on the way, and so may the fault of a file that cannot be converted;
but as long as the batch does not stop at a failure, faults are only counted.
-/

namespace SheetCompiler

/-! ## Tallies -/

namespace Tally

/-- Results may be counted in any order. -/
theorem addResult_comm (tally : Tally) (first second : Except Fault CompiledWorkbook) :
    (tally.addResult first).addResult second = (tally.addResult second).addResult first := by
  cases first with
  | error fault => cases second <;> rfl
  | ok workbook =>
    cases second with
    | error fault => rfl
    | ok other => simp [addResult, addWorkbook, Nat.add_right_comm]

theorem foldl_addResult_append_cons (front back : List (Except Fault CompiledWorkbook))
    (result : Except Fault CompiledWorkbook) (tally : Tally) :
    (front ++ result :: back).foldl addResult tally =
      ((front ++ back).foldl addResult tally).addResult result := by
  have hperm : (front ++ result :: back).Perm ((front ++ back) ++ [result]) :=
    List.perm_middle.trans (List.perm_append_singleton result (front ++ back)).symm
  rw [hperm.foldl_eq' (fun first _ second _ tally => addResult_comm tally first second),
    List.foldl_append, List.foldl_cons, List.foldl_nil]

/-- The files that were processed and the files that failed. -/
theorem files_foldl_addResult (results : List (Except Fault CompiledWorkbook)) (tally : Tally) :
    (results.foldl addResult tally).filesProcessed =
        tally.filesProcessed + results.countP (fun result => result.isOk) ∧
      (results.foldl addResult tally).filesProcessed +
          (results.foldl addResult tally).filesFailed =
        tally.filesProcessed + tally.filesFailed + results.length := by
  induction results generalizing tally with
  | nil => exact ⟨rfl, rfl⟩
  | cons result rest ih =>
    obtain ⟨hprocessed, hboth⟩ := ih (tally.addResult result)
    rw [List.foldl_cons, List.countP_cons, List.length_cons, hboth, hprocessed]
    cases result with
    | error fault =>
      simp [addResult, addFailure, Except.isOk, Except.toBool]
      omega
    | ok workbook =>
      simp [addResult, addWorkbook, Except.isOk, Except.toBool]
      omega

end Tally

/-! ## Sound states -/

/-- The outputs of a plan are different files, and none of them is an input. -/
structure Plan.Separate (tree : FileTree) (plan : List Assignment) : Prop where
  outputs : plan.Pairwise fun first second => ∀ location,
    tree.location? first.output = some location → tree.location? second.output ≠ some location
  inputs : ∀ first ∈ plan, ∀ second ∈ plan, ∀ location,
    tree.location? first.output = some location → tree.location? second.input ≠ some location

theorem Plan.Separate.output_ne {tree : FileTree} {front back : List Assignment}
    {assignment other : Assignment} (h : Plan.Separate tree (front ++ assignment :: back))
    (hother : other ∈ front ∨ other ∈ back) {location : Location}
    (hlocation : tree.location? assignment.output = some location) :
    tree.location? other.output ≠ some location := by
  obtain ⟨-, hback, hfront⟩ := List.pairwise_append.mp h.outputs
  rw [List.pairwise_cons] at hback
  rcases hother with hother | hother
  · intro hsame
    exact hfront other hother assignment List.mem_cons_self location hsame hlocation
  · exact hback.1 other hother location hlocation

namespace Stage

/-- The result that has been taken. -/
def result? : Stage → Option (Except Fault CompiledWorkbook)
  | taken result => some result
  | _ => none

/-- The workbook that has been written. -/
def written? : Stage → Option CompiledWorkbook
  | ended result => result.toOption
  | taken result => result.toOption
  | _ => none

/-- What stands at the output of a file, when there was something before. -/
def output? (pretty : Bool) (before : Option FileNode) (stage : Stage) : Option FileNode :=
  (stage.written?.map fun workbook => .file (Batch.outputBytes pretty workbook)).or before

end Stage

/-- A stage that a file reaches when it is converted by itself. -/
def Batch.Reaches (batch : Batch) (tree : FileTree) (assignment : Assignment) : Stage → Prop
  | .waiting | .reading => True
  | .writing workbook => prepare batch.rules tree assignment.input = .ok workbook
  | .ended result | .taken result => batch.converts? tree assignment = result.toOption

namespace Conversion

variable {batch : Batch} {room : Nat} {tree : FileTree} {plan : List Assignment}
  {state next : Conversion}

/-- Every file is on the way on which it would be by itself, and the tree and the tally tell how far
each of them has come. -/
structure Sound (batch : Batch) (tree : FileTree) (plan : List Assignment)
    (state : Conversion) : Prop where
  planned : state.jobs.map Job.assignment = plan
  running : state.stopped = none
  stages : ∀ job ∈ state.jobs, batch.Reaches tree job.assignment job.stage
  directories : tree.SameDirectories state.tree
  outputs : ∀ job ∈ state.jobs, ∀ location,
    tree.location? job.assignment.output = some location →
      state.tree.node? location = job.stage.output? batch.pretty (tree.node? location)
  others : ∀ location, (∀ assignment ∈ plan, tree.location? assignment.output ≠ some location) →
    state.tree.node? location = tree.node? location
  tally : state.tally = (state.jobs.filterMap fun job => job.stage.result?).foldl Tally.addResult {}

theorem sound_start (batch : Batch) (tree : FileTree) (plan : List Assignment) :
    (start tree plan).Sound batch tree plan := by
  have hjobs : ∀ job ∈ (start tree plan).jobs, job.stage = .waiting := by
    intro job hjob
    obtain ⟨assignment, -, rfl⟩ := List.mem_map.mp hjob
    rfl
  refine ⟨?_, rfl, ?_, .refl tree, ?_, fun _ _ => rfl, ?_⟩
  · rw [start, List.map_map]
    exact List.map_id' plan
  · intro job hjob
    rw [hjobs job hjob]
    trivial
  · intro job hjob location _
    rw [hjobs job hjob]
    rfl
  · have hnone : (start tree plan).jobs.filterMap (fun job => job.stage.result?) = [] := by
      rw [List.filterMap_eq_nil_iff]
      intro job hjob
      rw [hjobs job hjob]
      rfl
    rw [hnone]
    rfl

theorem Sound.mem_plan (h : state.Sound batch tree plan) {front back : List Job}
    {assignment : Assignment} {stage : Stage}
    (hjobs : state.jobs = front ++ ⟨assignment, stage⟩ :: back) : assignment ∈ plan := by
  rw [← h.planned, hjobs, List.map_append, List.map_cons]
  exact List.mem_append_cons_self

/-- An input is read as it was in the beginning. -/
theorem Sound.toOption_prepare (hsep : Plan.Separate tree plan) (h : state.Sound batch tree plan)
    {assignment : Assignment} (hmem : assignment ∈ plan) :
    (Batch.prepare batch.rules state.tree assignment.input).toOption =
      (Batch.prepare batch.rules tree assignment.input).toOption := by
  have hlocation := h.directories.location?_eq assignment.input
  refine Batch.toOption_prepare hlocation.symm fun location hinput => ?_
  rw [← hlocation] at hinput
  refine h.others location fun other hother houtput => ?_
  exact hsep.inputs other hother assignment hmem location houtput hinput

/-- One file gets to another stage, and nothing changes but its own output. -/
theorem Sound.advance (hsep : Plan.Separate tree plan) (h : state.Sound batch tree plan)
    {front back : List Job} {assignment : Assignment} {stage other : Stage}
    (hjobs : state.jobs = front ++ ⟨assignment, stage⟩ :: back)
    (hnext : next.jobs = front ++ ⟨assignment, other⟩ :: back) (hrunning : next.stopped = none)
    (hreaches : batch.Reaches tree assignment other)
    (hdirectories : tree.SameDirectories next.tree)
    (houtput : ∀ location, tree.location? assignment.output = some location →
      next.tree.node? location = other.output? batch.pretty (tree.node? location))
    (hkept : ∀ location, tree.location? assignment.output ≠ some location →
      next.tree.node? location = state.tree.node? location)
    (htally : next.tally =
      (next.jobs.filterMap fun job => job.stage.result?).foldl Tally.addResult {}) :
    next.Sound batch tree plan := by
  have hplan := h.planned
  have hstages := h.stages
  have houtputs := h.outputs
  rw [hjobs] at hplan hstages houtputs
  rw [List.forall_mem_append, List.forall_mem_cons] at hstages houtputs
  rw [List.map_append, List.map_cons] at hplan
  have hother : ∀ job, job ∈ front ∨ job ∈ back → ∀ location,
      tree.location? job.assignment.output = some location →
        next.tree.node? location = state.tree.node? location := by
    intro job hjob location hlocation
    refine hkept location fun hsame => ?_
    rw [← hplan] at hsep
    refine hsep.output_ne ?_ hsame hlocation
    exact hjob.imp (fun hmem => List.mem_map_of_mem hmem) fun hmem => List.mem_map_of_mem hmem
  refine ⟨?_, hrunning, ?_, hdirectories, ?_, fun location hlocation => ?_, htally⟩
  · rw [hnext, List.map_append, List.map_cons, hplan]
  · rw [hnext]
    exact List.forall_mem_append.mpr
      ⟨hstages.1, List.forall_mem_cons.mpr ⟨hreaches, hstages.2.2⟩⟩
  · rw [hnext]
    refine List.forall_mem_append.mpr ⟨fun job hjob location hlocation => ?_,
      List.forall_mem_cons.mpr ⟨houtput, fun job hjob location hlocation => ?_⟩⟩
    · rw [hother job (Or.inl hjob) location hlocation, houtputs.1 job hjob location hlocation]
    · rw [hother job (Or.inr hjob) location hlocation, houtputs.2.2 job hjob location hlocation]
  · rw [hkept location (hlocation assignment (h.mem_plan hjobs)), h.others location hlocation]

/-- At a stage where the same has been written, the tree tells the same. -/
theorem Sound.node?_of_written? (h : state.Sound batch tree plan) {front back : List Job}
    {assignment : Assignment} {stage other : Stage}
    (hjobs : state.jobs = front ++ ⟨assignment, stage⟩ :: back)
    (hwritten : other.written? = stage.written?) (location : Location)
    (hlocation : tree.location? assignment.output = some location) :
    state.tree.node? location = other.output? batch.pretty (tree.node? location) := by
  have hmem : ⟨assignment, stage⟩ ∈ state.jobs := hjobs ▸ List.mem_append_cons_self
  rw [h.outputs _ hmem location hlocation, Stage.output?, Stage.output?, hwritten]

/-- A move that writes nothing and takes nothing. -/
theorem Sound.restage (hsep : Plan.Separate tree plan) (h : state.Sound batch tree plan)
    {front back : List Job} {assignment : Assignment} {stage other : Stage}
    (hjobs : state.jobs = front ++ ⟨assignment, stage⟩ :: back)
    (hreaches : batch.Reaches tree assignment other) (hwritten : other.written? = stage.written?)
    (hresult : other.result? = stage.result?) :
    Sound batch tree plan { state with jobs := front ++ ⟨assignment, other⟩ :: back } := by
  refine h.advance hsep hjobs rfl h.running hreaches h.directories
    (h.node?_of_written? hjobs hwritten) (fun _ _ => rfl) ?_
  rw [h.tally, hjobs, List.filterMap_append, List.filterMap_append, List.filterMap_cons,
    List.filterMap_cons]
  simp only [hresult]

/-- The output of a file is written. -/
theorem Sound.write (hsep : Plan.Separate tree plan) (h : state.Sound batch tree plan)
    {front back : List Job} {assignment : Assignment} {workbook : CompiledWorkbook}
    {after : FileTree} (hjobs : state.jobs = front ++ ⟨assignment, .writing workbook⟩ :: back)
    (hwrite : Batch.deliver batch.pretty state.tree assignment.output workbook = .ok after) :
    Sound batch tree plan { state with
      tree := after
      jobs := front ++ ⟨assignment, .ended (.ok workbook)⟩ :: back } := by
  have hprepare : batch.Reaches tree assignment (.writing workbook) :=
    h.stages ⟨assignment, .writing workbook⟩ (hjobs ▸ List.mem_append_cons_self)
  obtain ⟨location, hlocation, hnode, rfl⟩ := Batch.deliver_eq_ok.mp hwrite
  rw [← h.directories.location?_eq] at hlocation
  have hbefore : tree.node? location ≠ some .directory := by
    rwa [ne_eq, h.directories.directory]
  refine h.advance hsep hjobs rfl h.running ?_ (h.directories.trans (.put hnode _))
    (fun inner hinner => ?_) (fun inner hinner => ?_) ?_
  · exact Batch.converts?_eq_some.mpr ⟨hprepare, location, hlocation, hbefore⟩
  · rw [hlocation, Option.some.injEq] at hinner
    rw [FileTree.node?_put hnode, if_pos hinner.symm]
    rfl
  · have hne : inner ≠ location := by
      rintro rfl
      exact hinner hlocation
    rw [FileTree.node?_put hnode, if_neg hne]
  · rw [h.tally, hjobs, List.filterMap_append, List.filterMap_append]
    rfl

/-- The result of a file is taken. -/
theorem Sound.take (hcontinue : batch.failFast = false) (hsep : Plan.Separate tree plan)
    (h : state.Sound batch tree plan) {front back : List Job} {assignment : Assignment}
    {result : Except Fault CompiledWorkbook}
    (hjobs : state.jobs = front ++ ⟨assignment, .ended result⟩ :: back) :
    Sound batch tree plan { state with
      jobs := front ++ ⟨assignment, .taken result⟩ :: back
      tally := state.tally.addResult result
      stopped := batch.stopAt? result } := by
  have hreaches : batch.Reaches tree assignment (.ended result) :=
    h.stages ⟨assignment, .ended result⟩ (hjobs ▸ List.mem_append_cons_self)
  refine h.advance hsep hjobs rfl ?_ hreaches h.directories (h.node?_of_written? hjobs rfl)
    (fun _ _ => rfl) ?_
  · cases result with
    | ok workbook => rfl
    | error fault => exact if_neg (Bool.eq_false_iff.mp hcontinue)
  · rw [List.filterMap_append, List.filterMap_cons]
    show _ = (_ ++ result :: _).foldl _ _
    rw [Tally.foldl_addResult_append_cons, h.tally, hjobs, List.filterMap_append,
      List.filterMap_cons]
    rfl

/-- Every move of a sound batch gives a sound one. -/
theorem Sound.move (hcontinue : batch.failFast = false) (hsep : Plan.Separate tree plan)
    (h : state.Sound batch tree plan) (hmove : Move batch room state next) :
    next.Sound batch tree plan := by
  cases hmove with
  | enter _ hjobs _ => exact h.restage hsep hjobs trivial rfl rfl
  | @load front back assignment workbook _ hjobs hload =>
    refine h.restage hsep hjobs ?_ rfl rfl
    have hbefore := h.toOption_prepare hsep (h.mem_plan hjobs)
    rw [hload] at hbefore
    exact eq_ok_of_toOption hbefore.symm
  | @loadFails front back assignment fault _ hjobs hload =>
    refine h.restage hsep hjobs ?_ rfl rfl
    have hbefore := h.toOption_prepare hsep (h.mem_plan hjobs)
    rw [hload] at hbefore
    show batch.converts? tree assignment = none
    rw [Batch.converts?_eq, ← hbefore]
    rfl
  | write hjobs hwrite => exact h.write hsep hjobs hwrite
  | @writeFails front back assignment workbook fault hjobs hwrite =>
    refine h.restage hsep hjobs ?_ rfl rfl
    show batch.converts? tree assignment = none
    rw [Option.eq_none_iff_forall_ne_some]
    intro other hother
    obtain ⟨-, location, hlocation, hnode⟩ := Batch.converts?_eq_some.mp hother
    rw [h.directories.location?_eq] at hlocation
    rw [ne_eq, h.directories.directory] at hnode
    have hwritten : Batch.deliver batch.pretty state.tree assignment.output workbook = .ok _ :=
      Batch.deliver_eq_ok.mpr ⟨location, hlocation, hnode, rfl⟩
    rw [hwrite] at hwritten
    cases hwritten
  | take _ hjobs => exact h.take hcontinue hsep hjobs

/-- A sound batch stays sound, whatever the schedule is. -/
theorem Sound.run (hcontinue : batch.failFast = false) (hsep : Plan.Separate tree plan)
    {schedule : List Nat} (h : state.Sound batch tree plan)
    (hrun : run? batch room state schedule = some next) : next.Sound batch tree plan := by
  induction schedule generalizing state with
  | nil =>
    obtain rfl := Option.some.inj hrun
    exact h
  | cons place schedule ih =>
    rw [run?_cons, Option.bind_eq_some_iff] at hrun
    obtain ⟨second, hsecond, hrest⟩ := hrun
    exact ih (h.move hcontinue hsep (move_of_advance? hsecond)) hrest

end Conversion

namespace Conversion

variable {batch : Batch} {room : Nat} {tree : FileTree} {plan : List Assignment}
  {state other : Conversion}

/-! ## Finished batches -/

/-- The results that have been taken, in the order of the plan. -/
def results (state : Conversion) : List (Except Fault CompiledWorkbook) :=
  state.jobs.filterMap fun job => job.stage.result?

theorem Sound.all_isTaken (h : state.Sound batch tree plan) (hfinished : state.isFinished = true) :
    ∀ job ∈ state.jobs, job.stage.isTaken = true := by
  rw [isFinished, h.running, Option.isSome_none, Bool.false_or] at hfinished
  exact List.all_eq_true.mp hfinished

/-- The results of a finished batch are those of converting each file by itself. -/
theorem Sound.map_toOption_results (h : state.Sound batch tree plan)
    (hfinished : state.isFinished = true) :
    state.results.map Except.toOption = plan.map (batch.converts? tree) := by
  have hstages := h.stages
  have htaken := h.all_isTaken hfinished
  rw [results, ← h.planned]
  generalize state.jobs = jobs at hstages htaken
  induction jobs with
  | nil => rfl
  | cons job rest ih =>
    rw [List.forall_mem_cons] at hstages htaken
    obtain ⟨result, hresult⟩ := Stage.exists_of_isTaken htaken.1
    have hreaches := hstages.1
    rw [hresult] at hreaches
    rw [List.filterMap_cons, hresult, List.map_cons, List.map_cons,
      show batch.converts? tree job.assignment = _ from hreaches, ← ih hstages.2 htaken.2]
    rfl

/-- What stands at the output of a file in the end. -/
theorem Sound.node?_output (h : state.Sound batch tree plan) (hfinished : state.isFinished = true)
    {assignment : Assignment} (hmem : assignment ∈ plan) {location : Location}
    (hlocation : tree.location? assignment.output = some location) :
    state.tree.node? location =
      ((batch.converts? tree assignment).map fun workbook =>
        .file (Batch.outputBytes batch.pretty workbook)).or (tree.node? location) := by
  rw [← h.planned] at hmem
  obtain ⟨job, hjob, rfl⟩ := List.mem_map.mp hmem
  obtain ⟨result, hresult⟩ := Stage.exists_of_isTaken (h.all_isTaken hfinished job hjob)
  have hreaches := h.stages job hjob
  rw [hresult] at hreaches
  rw [h.outputs job hjob location hlocation, hresult,
    show batch.converts? tree job.assignment = _ from hreaches]
  rfl

end Conversion

namespace Tally

/-- Count a file that was converted to a workbook, or could not be. -/
def count (tally : Tally) : Option CompiledWorkbook → Tally
  | some workbook => tally.addWorkbook workbook
  | none => tally.addFailure

theorem foldl_addResult_eq (results : List (Except Fault CompiledWorkbook)) (tally : Tally) :
    results.foldl addResult tally = (results.map Except.toOption).foldl count tally := by
  have hresult : addResult = fun tally result => tally.count result.toOption := by
    funext tally result
    cases result <;> rfl
  rw [hresult, List.foldl_map]

end Tally

namespace Conversion

variable {batch : Batch} {room : Nat} {tree : FileTree} {plan : List Assignment}
  {state other : Conversion}

/-- All finished batches of one plan have come to the same. -/
theorem Sound.eq_of_isFinished (h : state.Sound batch tree plan)
    (hother : other.Sound batch tree plan) (hfinished : state.isFinished = true)
    (hotherFinished : other.isFinished = true) :
    state.tally = other.tally ∧ state.tree.home = other.tree.home ∧
      ∀ location, state.tree.node? location = other.tree.node? location := by
  refine ⟨?_, h.directories.home.symm.trans hother.directories.home, fun location => ?_⟩
  · rw [h.tally, hother.tally, ← results, ← results, Tally.foldl_addResult_eq,
      Tally.foldl_addResult_eq, h.map_toOption_results hfinished,
      hother.map_toOption_results hotherFinished]
  · by_cases houtput : ∃ assignment ∈ plan, tree.location? assignment.output = some location
    · obtain ⟨assignment, hmem, hlocation⟩ := houtput
      rw [h.node?_output hfinished hmem hlocation,
        hother.node?_output hotherFinished hmem hlocation]
    · have hnone : ∀ assignment ∈ plan, tree.location? assignment.output ≠ some location :=
        fun assignment hmem hlocation => houtput ⟨assignment, hmem, hlocation⟩
      rw [h.others location hnone, hother.others location hnone]

/-- Where a workbook was written, it can be read. -/
theorem Sound.read_output (h : state.Sound batch tree plan) {job : Job} (hjob : job ∈ state.jobs)
    {workbook : CompiledWorkbook} (hstage : job.stage = .taken (.ok workbook)) :
    state.tree.read job.assignment.output = .ok (Batch.outputBytes batch.pretty workbook) := by
  have hreaches := h.stages job hjob
  rw [hstage] at hreaches
  obtain ⟨-, location, hlocation, -⟩ := Batch.converts?_eq_some.mp hreaches
  have hnode := h.outputs job hjob location hlocation
  rw [hstage] at hnode
  refine eq_ok_of_toOption ?_
  rw [FileTree.toOption_read, ← h.directories.location?_eq, hlocation, Option.bind_some, hnode]
  rfl

/-- Where a file cannot be read, nothing is written for it. -/
theorem Sound.node?_of_unreadable (h : state.Sound batch tree plan) {assignment : Assignment}
    (hmem : assignment ∈ plan) {fault : Fault}
    (hprepare : Batch.prepare batch.rules tree assignment.input = .error fault)
    {location : Location} (hlocation : tree.location? assignment.output = some location) :
    state.tree.node? location = tree.node? location := by
  rw [← h.planned] at hmem
  obtain ⟨job, hjob, rfl⟩ := List.mem_map.mp hmem
  have hnot : job.stage.written? = none := by
    have hreaches := h.stages job hjob
    have hnone : batch.converts? tree job.assignment = none := by
      rw [Batch.converts?_eq, hprepare]
      rfl
    cases hstage : job.stage with
    | waiting => rfl
    | reading => rfl
    | writing workbook => rfl
    | ended result =>
      rw [hstage] at hreaches
      exact (show _ = result.toOption from hreaches).symm.trans hnone
    | taken result =>
      rw [hstage] at hreaches
      exact (show _ = result.toOption from hreaches).symm.trans hnone
  rw [h.outputs job hjob location hlocation, Stage.output?, hnot]
  rfl

/-- Without a stop at the first failure the schedule does not matter.  A batch whose outputs are
different files and no inputs makes at most four moves for each file and can always be finished; and
whenever it is finished, it has come to the same as converting its files one after another.  On the
way, the output of every file that was counted as processed is there, and nothing is written for a
file that cannot be read. -/
theorem finished_eq_convertAll (hcontinue : batch.failFast = false)
    (hsep : Plan.Separate tree plan) (jobs : Nat) {schedule : List Nat}
    (hrun : run? batch (Conversion.room jobs plan.length) (start tree plan) schedule = some state) :
    schedule.length ≤ 4 * plan.length ∧
    (∃ more last, run? batch (Conversion.room jobs plan.length) state more = some last ∧
      last.isFinished = true) ∧
    state.tally.filesProcessed = state.results.countP (fun result => result.isOk) ∧
    (∀ job ∈ state.jobs, ∀ workbook, job.stage = .taken (.ok workbook) →
      state.tree.read job.assignment.output = .ok (Batch.outputBytes batch.pretty workbook)) ∧
    (∀ assignment ∈ plan, ∀ fault,
      Batch.prepare batch.rules tree assignment.input = .error fault →
      ∀ location, tree.location? assignment.output = some location →
        state.tree.node? location = tree.node? location) ∧
    (state.isFinished = true →
      state.tally.filesProcessed + state.tally.filesFailed = plan.length ∧
      (batch.convertAll {} tree plan).2 = .ok state.tally ∧
      (∀ location,
        state.tree.node? location = (batch.convertAll {} tree plan).1.node? location) ∧
      ∀ path, state.tree.read path = (batch.convertAll {} tree plan).1.read path) := by
  have hroom : 0 < Conversion.room jobs plan.length := Nat.le_max_right _ _
  have hstart := sound_start batch tree plan
  have hsound := hstart.run hcontinue hsep hrun
  obtain ⟨hprocessed, hfiles⟩ := Tally.files_foldl_addResult state.results {}
  rw [results, ← hsound.tally, ← results] at hprocessed hfiles
  refine ⟨?_, exists_finished hroom state, by rw [hprocessed]; exact Nat.zero_add _,
    fun job hjob workbook hstage => hsound.read_output hjob hstage,
    fun assignment hmem fault hprepare location hlocation =>
      hsound.node?_of_unreadable hmem hprepare hlocation, fun hfinished => ?_⟩
  · have hlength := length_add_movesLeft_le hrun
    rw [movesLeft_start] at hlength
    omega
  · obtain ⟨sequence, last, hlast, hlastFinished, hconvert⟩ :=
      exists_run?_convertAll hroom batch plan (start tree plan) rfl ⟨[], rfl, by simp⟩
    have hlastSound := hstart.run hcontinue hsep hlast
    obtain ⟨htally, hhome, hnodes⟩ :=
      hsound.eq_of_isFinished hlastSound hfinished hlastFinished
    have hcount : state.results.length = plan.length := by
      have hmap := congrArg List.length (hsound.map_toOption_results hfinished)
      rwa [List.length_map, List.length_map] at hmap
    have hwhole : batch.convertAll {} tree plan = (last.tree, last.answer) := hconvert.symm
    rw [hwhole]
    refine ⟨?_, ?_, hnodes, FileTree.read_congr hhome hnodes⟩
    · rw [hfiles, hcount]
      exact Nat.zero_add _
    · rw [answer, hlastSound.running, htally]

/-- Two sheets, and a file that is none. -/
def tablesTree : FileTree where
  home := ["home"]
  nodes := [
    (["home", "a.csv"], .file (Text.Utf8.ofString "#var,Name\n#type,string\n,Ann\n,Bob\n")),
    (["home", "b.txt"], .file (Text.Utf8.ofString "no table")),
    (["home", "c.csv"], .file (Text.Utf8.ofString "#var,Name\n#type,string\n,Cid\n"))]

/-- Each of them is to be converted beside it. -/
def tablesPlan : List Assignment :=
  Plan.outputs none [⟨"a.csv"⟩, ⟨"b.txt"⟩, ⟨"c.csv"⟩]

theorem separate_tablesPlan : Plan.Separate tablesTree tablesPlan := by
  have houtputs : tablesPlan.Pairwise fun first second =>
      tablesTree.location? first.output ≠ tablesTree.location? second.output := by
    decide +kernel
  have hinputs : ∀ first ∈ tablesPlan, ∀ second ∈ tablesPlan,
      tablesTree.location? first.output ≠ tablesTree.location? second.input := by
    decide +kernel
  refine ⟨houtputs.imp ?_, ?_⟩
  · intro first second hne location hfirst hsecond
    exact hne (hfirst.trans hsecond.symm)
  · intro first hfirst second hsecond location houtput hinput
    exact hinputs first hfirst second hsecond (houtput.trans hinput.symm)

/-- With two jobs the second file fails while the first one is read, and the third file is done
before the first one is written. -/
theorem tables_finished_eq_convertAll : ∃ batch state,
    run? batch (Conversion.room 2 tablesPlan.length) (start tablesTree tablesPlan)
      [0, 1, 1, 0, 1, 2, 2, 2, 2, 0, 0] = some state ∧
    state.tally = ⟨2, 1, 2, 0, 3⟩ ∧
    (batch.convertAll {} tablesTree tablesPlan).2 = .ok state.tally ∧
    ∀ path, state.tree.read path = (batch.convertAll {} tablesTree tablesPlan).1.read path := by
  have hsome : ((Rules.ofSettings {}).toOption.bind fun rules =>
      (run? ⟨[], none, rules, false, false⟩ (Conversion.room 2 tablesPlan.length)
        (start tablesTree tablesPlan) [0, 1, 1, 0, 1, 2, 2, 2, 2, 0, 0]).map fun state =>
          (state.isFinished, state.tally)) = some (true, ⟨2, 1, 2, 0, 3⟩) := by
    decide +kernel
  obtain ⟨rules, -, hsome⟩ := Option.bind_eq_some_iff.mp hsome
  obtain ⟨state, hrun, hfacts⟩ := Option.map_eq_some_iff.mp hsome
  obtain ⟨hfinished, htally⟩ := Prod.mk.inj hfacts
  obtain ⟨-, -, -, -, -, hend⟩ := finished_eq_convertAll rfl separate_tablesPlan 2 hrun
  obtain ⟨-, hanswer, -, hread⟩ := hend hfinished
  exact ⟨_, state, hrun, htally, hanswer, hread⟩

end Conversion

end SheetCompiler
