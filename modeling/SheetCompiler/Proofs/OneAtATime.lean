import SheetCompiler.Proofs.Schedules

/-!
# One file at a time

With room for one conversion, a batch under way is at a turn: either it is between two files, or one
file is on its way and no other has been admitted, or a failure has stopped it (`Conversion.Turn`).
Every move goes on to a turn (`Turn.advance`), so every schedule does (`Turn.run`), and what has been
done up to a turn is what converting the files in order does (`Batch.InOrder`).

Therefore a batch that is to stop at the first failure has written the outputs of the files before
the failing one and nothing else, and its answer is the fault of this file
(`Conversion.stops_at_first_failure`).  Nothing is asked of the plan: outputs may be inputs or other
outputs, as long as the files are converted one after another.
-/

namespace SheetCompiler

namespace Batch

variable {batch : Batch} {tree middle after : FileTree} {front rest : List Assignment}
  {assignment : Assignment} {results : List (Except Fault CompiledWorkbook)}

/-! ## Files in order -/

/-- Files are converted one after another, each in the tree that the ones before it have left.  A file
that cannot be converted leaves the tree as it is. -/
inductive InOrder (batch : Batch) (tree : FileTree) :
    List Assignment → List (Except Fault CompiledWorkbook) → FileTree → Prop
  | nil : InOrder batch tree [] [] tree
  | converted {front : List Assignment} {results : List (Except Fault CompiledWorkbook)}
      {middle after : FileTree} {assignment : Assignment} {workbook : CompiledWorkbook}
      (hfront : InOrder batch tree front results middle)
      (hconvert : batch.convert middle assignment = .ok (workbook, after)) :
      InOrder batch tree (front ++ [assignment]) (results ++ [.ok workbook]) after
  | failed {front : List Assignment} {results : List (Except Fault CompiledWorkbook)}
      {middle : FileTree} {assignment : Assignment} {fault : Fault}
      (hfront : InOrder batch tree front results middle)
      (hconvert : batch.convert middle assignment = .error fault) :
      InOrder batch tree (front ++ [assignment]) (results ++ [.error fault]) middle

theorem InOrder.length_eq (h : batch.InOrder tree front results after) :
    results.length = front.length := by
  induction h with
  | nil => rfl
  | converted _ _ ih => rw [List.length_append, List.length_append, ih]; rfl
  | failed _ _ ih => rw [List.length_append, List.length_append, ih]; rfl

theorem InOrder.sameDirectories (h : batch.InOrder tree front results after) :
    tree.SameDirectories after := by
  induction h with
  | nil => exact .refl tree
  | converted _ hconvert ih => exact ih.trans (sameDirectories_of_convert hconvert)
  | failed _ _ ih => exact ih

/-- As long as nothing stops the batch, the files in order are the beginning of the whole plan. -/
theorem InOrder.convertAll_append (h : batch.InOrder tree front results after)
    (hgoes : ∀ result ∈ results, batch.stopAt? result = none) (rest : List Assignment) :
    batch.convertAll {} tree (front ++ rest) =
      batch.convertAll (results.foldl Tally.addResult {}) after rest := by
  induction h generalizing rest with
  | nil => rfl
  | converted _ hconvert ih =>
    rw [List.forall_mem_append] at hgoes
    rw [List.append_assoc, List.singleton_append, ih hgoes.1, convertAll, hconvert,
      List.foldl_append]
    rfl
  | failed _ hconvert ih =>
    rw [List.forall_mem_append, List.forall_mem_singleton] at hgoes
    have hcontinue : ¬ batch.failFast = true := fun hstop => by
      have hnone := hgoes.2
      rw [stopAt?, if_pos hstop] at hnone
      cases hnone
    rw [List.append_assoc, List.singleton_append, ih hgoes.1, convertAll, hconvert,
      List.foldl_append]
    exact if_neg hcontinue

/-- The conversion of a file changes the location of its output only. -/
theorem node?_convert {workbook : CompiledWorkbook}
    (h : batch.convert tree assignment = .ok (workbook, after)) :
    ∃ location, tree.location? assignment.output = some location ∧ ∀ inner,
      after.node? inner =
        if inner = location then some (.file (outputBytes batch.pretty workbook))
        else tree.node? inner := by
  obtain ⟨location, hlocation, hnode, rfl⟩ := deliver_eq_ok.mp (convert_eq_ok.mp h).2
  exact ⟨location, hlocation, FileTree.node?_put hnode _⟩

/-- What files in order have done to a tree: the output of each converted file is there, unless a later
one went to the same place, and nothing has changed where none of them went. -/
structure Wrote (batch : Batch) (tree : FileTree) (front : List Assignment)
    (results : List (Except Fault CompiledWorkbook)) (after : FileTree) : Prop where
  outputs : ∀ place entry workbook, front[place]? = some entry →
    results[place]? = some (.ok workbook) →
    (∀ later ∈ front.drop (place + 1),
      tree.location? later.output ≠ tree.location? entry.output) →
    after.read entry.output = .ok (outputBytes batch.pretty workbook)
  others : ∀ location, (∀ entry ∈ front, tree.location? entry.output ≠ some location) →
    after.node? location = tree.node? location

/-- The entry and the result at a place are the last ones or earlier ones. -/
theorem getElem?_append_singleton_cases {α β : Type} {front : List α} {results : List β}
    (hlength : results.length = front.length) {last entry : α} {final result : β} {place : Nat}
    (hentry : (front ++ [last])[place]? = some entry)
    (hresult : (results ++ [final])[place]? = some result) :
    (place = front.length ∧ entry = last ∧ result = final) ∨
      (place < front.length ∧ front[place]? = some entry ∧ results[place]? = some result) := by
  have hbound := (List.getElem?_eq_some_iff.mp hentry).1
  rw [List.length_append, List.length_singleton] at hbound
  rcases Nat.eq_or_lt_of_le (Nat.le_of_lt_succ hbound) with rfl | hlt
  · rw [List.getElem?_concat_length] at hentry
    rw [← hlength, List.getElem?_concat_length] at hresult
    exact Or.inl ⟨rfl, (Option.some.inj hentry).symm, (Option.some.inj hresult).symm⟩
  · rw [List.getElem?_append_left hlt] at hentry
    rw [List.getElem?_append_left (hlength ▸ hlt)] at hresult
    exact Or.inr ⟨hlt, hentry, hresult⟩

theorem InOrder.node?_output (h : batch.InOrder tree front results after) {place : Nat}
    {entry : Assignment} {workbook : CompiledWorkbook} (hentry : front[place]? = some entry)
    (hresult : results[place]? = some (.ok workbook))
    (hlater : ∀ later ∈ front.drop (place + 1),
      tree.location? later.output ≠ tree.location? entry.output) :
    ∃ location, tree.location? entry.output = some location ∧
      after.node? location = some (.file (outputBytes batch.pretty workbook)) := by
  induction h with
  | nil => cases hentry
  | converted hfront hconvert ih =>
    obtain ⟨location, hlocation, hnodes⟩ := node?_convert hconvert
    rw [← hfront.sameDirectories.location?_eq] at hlocation
    rcases getElem?_append_singleton_cases hfront.length_eq hentry hresult with
      ⟨-, rfl, hworkbook⟩ | ⟨hlt, hentry, hresult⟩
    · obtain rfl := Except.ok.inj hworkbook
      exact ⟨location, hlocation, by rw [hnodes, if_pos rfl]⟩
    · rw [List.drop_append_of_le_length hlt, List.forall_mem_append,
        List.forall_mem_singleton] at hlater
      obtain ⟨own, hown, hnode⟩ := ih hentry hresult hlater.1
      have hne : own ≠ location := by
        rintro rfl
        exact hlater.2 (hlocation.trans hown.symm)
      exact ⟨own, hown, by rw [hnodes, if_neg hne, hnode]⟩
  | failed hfront _ ih =>
    rcases getElem?_append_singleton_cases hfront.length_eq hentry hresult with
      ⟨-, -, hworkbook⟩ | ⟨hlt, hentry, hresult⟩
    · cases hworkbook
    · rw [List.drop_append_of_le_length hlt, List.forall_mem_append] at hlater
      exact ih hentry hresult hlater.1

theorem InOrder.node?_eq (h : batch.InOrder tree front results after) {location : Location}
    (hother : ∀ entry ∈ front, tree.location? entry.output ≠ some location) :
    after.node? location = tree.node? location := by
  induction h with
  | nil => rfl
  | converted hfront hconvert ih =>
    rw [List.forall_mem_append, List.forall_mem_singleton] at hother
    obtain ⟨own, hown, hnodes⟩ := node?_convert hconvert
    rw [← hfront.sameDirectories.location?_eq] at hown
    have hne : location ≠ own := by
      rintro rfl
      exact hother.2 hown
    rw [hnodes, if_neg hne, ih hother.1]
  | failed _ _ ih =>
    rw [List.forall_mem_append] at hother
    exact ih hother.1

theorem InOrder.wrote (h : batch.InOrder tree front results after) :
    batch.Wrote tree front results after where
  outputs place entry workbook hentry hresult hlater := by
    obtain ⟨location, hlocation, hnode⟩ := h.node?_output hentry hresult hlater
    refine eq_ok_of_toOption ?_
    rw [FileTree.toOption_read, ← h.sameDirectories.location?_eq, hlocation, Option.bind_some,
      hnode]
    rfl
  others _ hother := h.node?_eq hother

end Batch

namespace Conversion

variable {batch : Batch} {room place : Nat} {tree middle after : FileTree}
  {plan front rest : List Assignment} {state next : Conversion}
  {results : List (Except Fault CompiledWorkbook)}

/-! ## Turns -/

/-- Files that have not been admitted. -/
def waiting (plan : List Assignment) : List Job :=
  plan.map fun assignment => { assignment := assignment }

theorem isWaiting_of_mem_waiting {job : Job} (h : job ∈ waiting plan) :
    job.stage.isWaiting = true := by
  obtain ⟨assignment, -, rfl⟩ := List.mem_map.mp h
  rfl

/-- How far the only file that is on its way has come, and the tree at this stage. -/
inductive OnItsWay (batch : Batch) (middle : FileTree) (assignment : Assignment) :
    Stage → FileTree → Prop
  | reading : OnItsWay batch middle assignment .reading middle
  | writing {workbook : CompiledWorkbook}
      (hprepare : Batch.prepare batch.rules middle assignment.input = .ok workbook) :
      OnItsWay batch middle assignment (.writing workbook) middle
  | converted {workbook : CompiledWorkbook} {after : FileTree}
      (hconvert : batch.convert middle assignment = .ok (workbook, after)) :
      OnItsWay batch middle assignment (.ended (.ok workbook)) after
  | failed {fault : Fault} (hconvert : batch.convert middle assignment = .error fault) :
      OnItsWay batch middle assignment (.ended (.error fault)) middle

theorem OnItsWay.isRunning {assignment : Assignment} {stage : Stage}
    (h : OnItsWay batch middle assignment stage after) : stage.isRunning = true := by
  cases h <;> rfl

/-- A batch that converts one file at a time. -/
inductive Turn (batch : Batch) (tree : FileTree) (plan : List Assignment) : Conversion → Prop
  | between {front rest : List Assignment} {results : List (Except Fault CompiledWorkbook)}
      {middle : FileTree} {done : List Job} (hplan : plan = front ++ rest)
      (horder : batch.InOrder tree front results middle)
      (hgoes : ∀ result ∈ results, batch.stopAt? result = none)
      (hdone : ∀ job ∈ done, job.stage.isTaken = true) :
      Turn batch tree plan
        { tree := middle
          jobs := done ++ waiting rest
          tally := results.foldl Tally.addResult {} }
  | during {front rest : List Assignment} {results : List (Except Fault CompiledWorkbook)}
      {middle after : FileTree} {done : List Job} {assignment : Assignment} {stage : Stage}
      (hplan : plan = front ++ assignment :: rest)
      (horder : batch.InOrder tree front results middle)
      (hgoes : ∀ result ∈ results, batch.stopAt? result = none)
      (hdone : ∀ job ∈ done, job.stage.isTaken = true)
      (hstage : OnItsWay batch middle assignment stage after) :
      Turn batch tree plan
        { tree := after
          jobs := done ++ ⟨assignment, stage⟩ :: waiting rest
          tally := results.foldl Tally.addResult {} }
  | stopped {front rest : List Assignment} {results : List (Except Fault CompiledWorkbook)}
      {middle : FileTree} {jobs : List Job} {assignment : Assignment} {fault : Fault}
      {tally : Tally} (hplan : plan = front ++ assignment :: rest)
      (horder : batch.InOrder tree front results middle)
      (hgoes : ∀ result ∈ results, batch.stopAt? result = none)
      (hconvert : batch.convert middle assignment = .error fault)
      (hstop : batch.failFast = true)
      (hjobs : ∀ job ∈ jobs, job.stage.isRunning = false) :
      Turn batch tree plan { tree := middle, jobs := jobs, tally := tally, stopped := some fault }

theorem turn_start (batch : Batch) (tree : FileTree) (plan : List Assignment) :
    Turn batch tree plan (start tree plan) :=
  @Turn.between batch tree plan [] plan [] tree [] rfl .nil (List.forall_mem_nil _)
    (List.forall_mem_nil _)

/-- What makes a move has not been taken, and what is admitted is the first that waits. -/
theorem exists_of_advance? (h : advance? batch room state place = some next) :
    ∃ front assignment stage back, state.jobs = front ++ ⟨assignment, stage⟩ :: back ∧
      place = front.length ∧ stage.isTaken = false ∧
      (stage.isWaiting = true → state.stopped = none ∧ state.running < room ∧
        ∀ job ∈ front, job.stage.isWaiting = false) := by
  have hjob : ∃ job, state.jobs[place]? = some job := by
    rw [advance?, Option.bind_eq_some_iff] at h
    exact ⟨h.choose, h.choose_spec.1⟩
  obtain ⟨⟨assignment, stage⟩, hjob⟩ := hjob
  obtain ⟨front, back, hjobs, rfl⟩ := exists_append_of_getElem? hjob
  refine ⟨front, assignment, stage, back, hjobs, rfl, ?_⟩
  cases stage with
  | waiting =>
    rw [advance?_waiting hjobs, Option.ite_none_right_eq_some, Bool.and_eq_true, admits,
      Bool.and_eq_true, decide_eq_true_eq, Option.isNone_iff_eq_none, hjobs, List.take_left,
      List.all_eq_true] at h
    obtain ⟨⟨hstopped, hroom, hfirst⟩, -⟩ := h
    refine ⟨rfl, fun _ => ⟨hstopped, hroom, fun job hjob => ?_⟩⟩
    simpa using hfirst job hjob
  | taken result =>
    rw [advance?_taken hjobs] at h
    cases h
  | reading => exact ⟨rfl, fun h => by cases h⟩
  | writing workbook => exact ⟨rfl, fun h => by cases h⟩
  | ended result => exact ⟨rfl, fun h => by cases h⟩

theorem isRunning_eq_false_of_isTaken {stage : Stage} (h : stage.isTaken = true) :
    stage.isRunning = false := by
  rw [Stage.isRunning, h, Bool.not_true, Bool.and_false]

theorem isRunning_eq_false_of_isWaiting {stage : Stage} (h : stage.isWaiting = true) :
    stage.isRunning = false := by
  rw [Stage.isRunning, h, Bool.not_true, Bool.false_and]

/-- A file behind those that are done is the first of the others, or there is one between. -/
theorem cases_of_append_eq {done later front back : List Job} {job : Job}
    (h : done ++ later = front ++ job :: back) (hdone : ∀ job ∈ done, job.stage.isTaken = true)
    (hjob : job.stage.isTaken = false) :
    (front = done ∧ later = job :: back) ∨
      ∃ first between, front = done ++ first :: between ∧
        later = first :: (between ++ job :: back) := by
  rcases List.append_eq_append_iff.mp h with ⟨between, hfront, hlater⟩ | ⟨more, hmore, hlater⟩
  · cases between with
    | nil => exact Or.inl ⟨by rw [hfront, List.append_nil], hlater⟩
    | cons first between => exact Or.inr ⟨first, between, hfront, hlater⟩
  · cases more with
    | nil =>
      rw [List.append_nil] at hmore
      exact Or.inl ⟨hmore.symm, hlater.symm⟩
    | cons first more =>
      obtain ⟨rfl, -⟩ := List.cons.inj hlater
      rw [hdone job (hmore ▸ List.mem_append_cons_self)] at hjob
      cases hjob

/-- Between two files, the first one that waits is admitted. -/
theorem Turn.enter {done : List Job} (hplan : plan = front ++ rest)
    (horder : batch.InOrder tree front results middle)
    (hgoes : ∀ result ∈ results, batch.stopAt? result = none)
    (hdone : ∀ job ∈ done, job.stage.isTaken = true)
    (h : advance? batch 1 ⟨middle, done ++ waiting rest, results.foldl Tally.addResult {}, none⟩
      place = some next) :
    Turn batch tree plan next := by
  obtain ⟨others, assignment, stage, back, hjobs, rfl, hnew, hwaits⟩ := exists_of_advance? h
  rcases cases_of_append_eq hjobs hdone hnew with
    ⟨rfl, hwaiting⟩ | ⟨first, between, rfl, hwaiting⟩
  · cases rest with
    | nil => cases hwaiting
    | cons assignment rest =>
      obtain ⟨hfirst, rfl⟩ := List.cons.inj hwaiting
      obtain ⟨rfl, rfl⟩ := Job.mk.inj hfirst
      rw [advance?_waiting hjobs, Option.ite_none_right_eq_some] at h
      obtain rfl := Option.some.inj h.2
      exact .during hplan horder hgoes hdone .reading
  · -- the file before it waits too
    have hmem : ∀ job ∈ first :: (between ++ ⟨assignment, stage⟩ :: back),
        job.stage.isWaiting = true := fun job hjob => isWaiting_of_mem_waiting (hwaiting ▸ hjob)
    obtain ⟨-, -, hnone⟩ := hwaits
      (hmem ⟨assignment, stage⟩ (List.mem_cons_of_mem _ List.mem_append_cons_self))
    have hfalse := hnone first List.mem_append_cons_self
    rw [hmem first List.mem_cons_self] at hfalse
    cases hfalse

/-- While a file is on its way, it makes the next move. -/
theorem Turn.proceed {done : List Job} {assignment : Assignment} {stage : Stage}
    (hplan : plan = front ++ assignment :: rest)
    (horder : batch.InOrder tree front results middle)
    (hgoes : ∀ result ∈ results, batch.stopAt? result = none)
    (hdone : ∀ job ∈ done, job.stage.isTaken = true)
    (hstage : OnItsWay batch middle assignment stage after)
    (h : advance? batch 1 ⟨after, done ++ ⟨assignment, stage⟩ :: waiting rest,
      results.foldl Tally.addResult {}, none⟩ done.length = some next) :
    Turn batch tree plan next := by
  -- when its result is taken, it has joined the files that are done
  have hnext : ∀ {result : Except Fault CompiledWorkbook} {tree' : FileTree},
      batch.InOrder tree (front ++ [assignment]) (results ++ [result]) tree' →
      batch.stopAt? result = none →
      Turn batch tree plan ⟨tree', done ++ ⟨assignment, .taken result⟩ :: waiting rest,
        (results.foldl Tally.addResult {}).addResult result, none⟩ := by
    intro result tree' hmore hgo
    have hturn := @Turn.between batch tree plan _ rest _ _ (done ++ [⟨assignment, .taken result⟩])
      (by rw [hplan, List.append_assoc, List.singleton_append]) hmore
      (List.forall_mem_append.mpr ⟨hgoes, List.forall_mem_singleton.mpr hgo⟩)
      (List.forall_mem_append.mpr ⟨hdone, List.forall_mem_singleton.mpr rfl⟩)
    rwa [List.append_assoc, List.singleton_append, List.foldl_append] at hturn
  cases hstage with
  | reading =>
    rw [advance?_reading rfl] at h
    cases hprepare : Batch.prepare batch.rules middle assignment.input with
    | ok workbook =>
      rw [hprepare] at h
      obtain rfl := Option.some.inj h
      exact .during hplan horder hgoes hdone (.writing hprepare)
    | error fault =>
      rw [hprepare] at h
      obtain rfl := Option.some.inj h
      refine .during hplan horder hgoes hdone (.failed ?_)
      rw [Batch.convert, hprepare]
  | @writing workbook hprepare =>
    rw [advance?_writing rfl] at h
    cases hdeliver : Batch.deliver batch.pretty middle assignment.output workbook with
    | ok written =>
      rw [hdeliver] at h
      obtain rfl := Option.some.inj h
      exact .during hplan horder hgoes hdone
        (.converted (Batch.convert_eq_ok.mpr ⟨hprepare, hdeliver⟩))
    | error fault =>
      rw [hdeliver] at h
      obtain rfl := Option.some.inj h
      refine .during hplan horder hgoes hdone (.failed ?_)
      simp only [Batch.convert, hprepare, hdeliver]
  | @converted workbook after hconvert =>
    rw [advance?_ended rfl] at h
    obtain rfl := Option.some.inj h
    exact hnext (horder.converted hconvert) rfl
  | @failed fault hconvert =>
    rw [advance?_ended rfl] at h
    obtain rfl := Option.some.inj h
    cases hstop : batch.failFast with
    | false =>
      have hgo : batch.stopAt? (.error fault) = none := by
        rw [Batch.stopAt?, if_neg (Bool.eq_false_iff.mp hstop)]
      rw [hgo]
      exact hnext (horder.failed hconvert) hgo
    | true =>
      have hhalt : batch.stopAt? (.error fault) = some fault := by
        rw [Batch.stopAt?, if_pos hstop]
      rw [hhalt]
      refine .stopped hplan horder hgoes hconvert hstop ?_
      rw [List.forall_mem_append, List.forall_mem_cons]
      exact ⟨fun job hjob => isRunning_eq_false_of_isTaken (hdone job hjob), rfl, fun job hjob =>
        isRunning_eq_false_of_isWaiting (isWaiting_of_mem_waiting hjob)⟩

/-- Every move of a batch with room for one file goes on to a turn. -/
theorem Turn.advance (h : Turn batch tree plan state)
    (hmove : advance? batch 1 state place = some next) : Turn batch tree plan next := by
  cases h with
  | between hplan horder hgoes hdone => exact .enter hplan horder hgoes hdone hmove
  | during hplan horder hgoes hdone hstage =>
    obtain ⟨others, mover, stage, back, hjobs, rfl, hnew, hwaits⟩ := exists_of_advance? hmove
    rcases cases_of_append_eq hjobs hdone hnew with
      ⟨rfl, -⟩ | ⟨first, between, -, hlater⟩
    · exact .proceed hplan horder hgoes hdone hstage hmove
    · -- there is no room for another file
      obtain ⟨-, hrest⟩ := List.cons.inj hlater
      have hmem := isWaiting_of_mem_waiting (hrest ▸ List.mem_append_cons_self)
      obtain ⟨-, hroom, -⟩ := hwaits hmem
      have hnone := List.countP_eq_zero.mp (Nat.lt_one_iff.mp hroom) _ List.mem_append_cons_self
      exact absurd hstage.isRunning hnone
  | @stopped _ _ _ _ jobs _ _ _ _ _ _ _ _ hjobs =>
    obtain ⟨others, mover, stage, back, hsplit, -, hnew, hwaits⟩ := exists_of_advance? hmove
    have hmem : ⟨mover, stage⟩ ∈ jobs :=
      (show jobs = others ++ ⟨mover, stage⟩ :: back from hsplit) ▸ List.mem_append_cons_self
    have hidle := hjobs _ hmem
    have hwaiting : stage.isWaiting = true := by
      simpa [Stage.isRunning, hnew] using hidle
    cases (hwaits hwaiting).1

/-- Every schedule with room for one file leads to a turn. -/
theorem Turn.run {schedule : List Nat} (h : Turn batch tree plan state)
    (hrun : run? batch 1 state schedule = some next) : Turn batch tree plan next := by
  induction schedule generalizing state with
  | nil =>
    obtain rfl := Option.some.inj hrun
    exact h
  | cons place schedule ih =>
    rw [run?_cons, Option.bind_eq_some_iff] at hrun
    obtain ⟨second, hsecond, hrest⟩ := hrun
    exact ih (h.advance hsecond) hrest

/-! ## Finished batches -/

/-- A finished batch has converted its plan in order, or has stopped at a file of it. -/
theorem Turn.cases_of_isFinished (h : Turn batch tree plan state)
    (hfinished : state.isFinished = true) :
    (∃ results, batch.InOrder tree plan results state.tree ∧
      (∀ result ∈ results, batch.stopAt? result = none) ∧
      state.answer = .ok (results.foldl Tally.addResult {})) ∨
    ∃ front assignment back results fault, plan = front ++ assignment :: back ∧
      batch.InOrder tree front results state.tree ∧
      (∀ result ∈ results, batch.stopAt? result = none) ∧
      batch.convert state.tree assignment = .error fault ∧ batch.failFast = true ∧
      state.answer = .error fault := by
  cases h with
  | @between front rest results middle done hplan horder hgoes hdone =>
    have hnone : rest = [] := by
      cases rest with
      | nil => rfl
      | cons assignment rest =>
        have htaken := List.all_eq_true.mp hfinished ⟨assignment, .waiting⟩
          (List.mem_append_cons_self)
        cases htaken
    rw [hnone, List.append_nil] at hplan
    exact Or.inl ⟨results, hplan ▸ horder, hgoes, rfl⟩
  | during hplan horder hgoes hdone hstage =>
    have htaken := List.all_eq_true.mp hfinished _ List.mem_append_cons_self
    cases hstage.isRunning.symm.trans (isRunning_eq_false_of_isTaken htaken)
  | @stopped front rest results middle jobs assignment fault tally hplan horder hgoes hconvert
      hstop hjobs =>
    exact Or.inr ⟨front, assignment, rest, results, fault, hplan, horder, hgoes, hconvert, hstop,
      rfl⟩

/-- A finished batch has come to the same as converting one file after another. -/
theorem Turn.convertAll_eq (h : Turn batch tree plan state) (hfinished : state.isFinished = true) :
    batch.convertAll {} tree plan = (state.tree, state.answer) := by
  rcases h.cases_of_isFinished hfinished with ⟨results, horder, hgoes, hanswer⟩ |
    ⟨front, assignment, back, results, fault, hplan, horder, hgoes, hconvert, hstop, hanswer⟩
  · have hall := horder.convertAll_append hgoes []
    rwa [List.append_nil, Batch.convertAll, ← hanswer] at hall
  · rw [hplan, horder.convertAll_append hgoes, Batch.convertAll, hconvert, hanswer]
    exact if_pos hstop

theorem room_one (files : Nat) : Conversion.room 1 files = 1 := by
  rw [Conversion.room]
  omega

/-- Results at which a batch does not stop at a failure are those of converted files. -/
theorem exists_workbooks (hstop : batch.failFast = true)
    (hgoes : ∀ result ∈ results, batch.stopAt? result = none) :
    ∃ workbooks : List CompiledWorkbook, results = workbooks.map .ok := by
  induction results with
  | nil => exact ⟨[], rfl⟩
  | cons result rest ih =>
    rw [List.forall_mem_cons] at hgoes
    obtain ⟨workbooks, rfl⟩ := ih hgoes.2
    cases result with
    | ok workbook => exact ⟨workbook :: workbooks, rfl⟩
    | error fault =>
      rw [Batch.stopAt?, if_pos hstop] at hgoes
      cases hgoes.1

end Conversion

/-- Whether a batch stops at failures does not matter for files in order. -/
theorem Batch.InOrder.keepsGoing {batch : Batch} {tree after : FileTree} {front : List Assignment}
    {results : List (Except Fault CompiledWorkbook)} (h : batch.InOrder tree front results after) :
    Batch.InOrder { batch with failFast := false } tree front results after := by
  induction h with
  | nil => exact .nil
  | converted _ hconvert ih => exact .converted ih hconvert
  | failed _ hconvert ih => exact .failed ih hconvert

namespace Conversion

variable {batch : Batch} {tree : FileTree} {plan : List Assignment} {state : Conversion}

/-- With room for one file, a batch that is to stop at the first failure converts its files in order
and is cut there.  It makes at most four moves for each file and can always be finished; and whenever
it is finished, it has converted some files from the beginning of the plan, whose outputs are written,
and nothing else has changed.  If these are all files, the answer is their tally, and without the stop
the batch comes to the same.  If not, the next file is one that cannot be converted then, and the answer
is its fault. -/
theorem stops_at_first_failure (hstop : batch.failFast = true) {schedule : List Nat}
    (hrun : run? batch (Conversion.room 1 plan.length) (start tree plan) schedule = some state) :
    schedule.length ≤ 4 * plan.length ∧
    (∃ more last, run? batch (Conversion.room 1 plan.length) state more = some last ∧
      last.isFinished = true) ∧
    (state.isFinished = true →
      batch.convertAll {} tree plan = (state.tree, state.answer) ∧
      ∃ (front back : List Assignment) (workbooks : List CompiledWorkbook), plan = front ++ back ∧
        batch.InOrder tree front (workbooks.map .ok) state.tree ∧
        batch.Wrote tree front (workbooks.map .ok) state.tree ∧
        ((back = [] ∧ state.answer = .ok (workbooks.foldl Tally.addWorkbook {}) ∧
            ∀ schedule last,
              run? { batch with failFast := false } (Conversion.room 1 plan.length)
                (start tree plan) schedule = some last →
              last.isFinished = true → last.tree = state.tree ∧ last.answer = state.answer) ∨
          ∃ assignment rest fault, back = assignment :: rest ∧
            batch.convert state.tree assignment = .error fault ∧
            state.answer = .error fault)) := by
  have hroom : 0 < Conversion.room 1 plan.length := Nat.le_max_right _ _
  refine ⟨?_, exists_finished hroom state, fun hfinished => ?_⟩
  · have hlength := length_add_movesLeft_le hrun
    rw [movesLeft_start] at hlength
    omega
  rw [room_one] at hrun ⊢
  have hturn := (turn_start batch tree plan).run hrun
  refine ⟨hturn.convertAll_eq hfinished, ?_⟩
  rcases hturn.cases_of_isFinished hfinished with ⟨results, horder, hgoes, hanswer⟩ |
    ⟨front, assignment, back, results, fault, hplan, horder, hgoes, hconvert, -, hanswer⟩
  · obtain ⟨workbooks, rfl⟩ := exists_workbooks hstop hgoes
    rw [List.foldl_map] at hanswer
    refine ⟨plan, [], workbooks, (List.append_nil plan).symm, horder, horder.wrote,
      Or.inl ⟨rfl, hanswer, fun schedule last hlast hdone => ?_⟩⟩
    have hgoing : ∀ result ∈ workbooks.map Except.ok,
        Batch.stopAt? { batch with failFast := false } result = none :=
      List.forall_mem_map.mpr fun workbook _ => rfl
    have hall := horder.keepsGoing.convertAll_append hgoing []
    have hsame := ((turn_start _ tree plan).run hlast).convertAll_eq hdone
    rw [List.append_nil, Batch.convertAll, List.foldl_map] at hall
    obtain ⟨htree, hresult⟩ := Prod.mk.inj (hsame.symm.trans hall)
    exact ⟨htree, hresult.trans hanswer.symm⟩
  · obtain ⟨workbooks, rfl⟩ := exists_workbooks hstop hgoes
    exact ⟨front, assignment :: back, workbooks, hplan, horder, horder.wrote,
      Or.inr ⟨assignment, back, fault, rfl, hconvert, hanswer⟩⟩

/-- The first file is written, the second one has no format that is known, and the third one is not
looked at. -/
theorem tables_stop_at_first_failure : ∃ batch state, batch.failFast = true ∧
    run? batch (Conversion.room 1 tablesPlan.length) (start tablesTree tablesPlan)
      [0, 0, 0, 0, 1, 1, 1] = some state ∧
    batch.convertAll {} tablesTree tablesPlan =
      (state.tree, .error (.unsupportedFormat ⟨"b.txt"⟩)) ∧
    state.tree.exists? ⟨"a.records.json"⟩ = true ∧
    state.tree.exists? ⟨"c.records.json"⟩ = false := by
  have hsome : ((Rules.ofSettings {}).toOption.bind fun rules =>
      (run? ⟨[], none, rules, false, true⟩ (Conversion.room 1 tablesPlan.length)
        (start tablesTree tablesPlan) [0, 0, 0, 0, 1, 1, 1]).map fun state =>
          (state.isFinished, state.stopped, state.tree.exists? ⟨"a.records.json"⟩,
            state.tree.exists? ⟨"c.records.json"⟩)) =
      some (true, some (.unsupportedFormat ⟨"b.txt"⟩), true, false) := by
    decide +kernel
  obtain ⟨rules, -, hsome⟩ := Option.bind_eq_some_iff.mp hsome
  obtain ⟨state, hrun, hfacts⟩ := Option.map_eq_some_iff.mp hsome
  simp only [Prod.mk.injEq] at hfacts
  obtain ⟨hfinished, hstopped, hfirst, hthird⟩ := hfacts
  obtain ⟨-, -, hend⟩ := stops_at_first_failure rfl hrun
  have hall := (hend hfinished).1
  rw [answer, hstopped] at hall
  exact ⟨_, state, rfl, hrun, hall, hfirst, hthird⟩

end Conversion

end SheetCompiler
