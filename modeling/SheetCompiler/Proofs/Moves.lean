import Mathlib.Algebra.GroupWithZero.Nat
import SheetCompiler.Batch.Schedule
import SheetCompiler.Proofs.Steps

/-!
# Moves of a batch

What a move does is told by `Conversion.Move`, one case for each kind of move, and every move is one
of these (`move_of_advance?`).  A file has at most four moves before it and each move takes one away
(`Move.movesLeft_lt`), so no schedule goes on for ever (`length_add_movesLeft_le`).  As long as a
batch is not finished, some file can make a move: one that runs, or else the next one that waits
(`exists_advance?`).  So every batch can be finished (`exists_finished`).

Among the schedules is the one in which each file makes all its moves before the next one is
admitted.  It comes to what `Batch.convertAll` comes to (`exists_run?_convertAll`).
-/

namespace SheetCompiler

theorem Stage.exists_of_isTaken {stage : Stage} (h : stage.isTaken = true) :
    ∃ result, stage = .taken result := by
  cases stage with
  | taken result => exact ⟨result, rfl⟩
  | waiting => cases h
  | reading => cases h
  | writing workbook => cases h
  | ended result => cases h

/-! ## Moves -/

namespace Conversion

variable {batch : Batch} {room : Nat} {state next : Conversion}

/-- What a move does. -/
inductive Move (batch : Batch) (room : Nat) (state : Conversion) : Conversion → Prop
  | enter {front back : List Job} {assignment : Assignment}
      (hstopped : state.stopped = none)
      (hjobs : state.jobs = front ++ ⟨assignment, .waiting⟩ :: back)
      (hroom : state.running < room) :
      Move batch room state { state with jobs := front ++ ⟨assignment, .reading⟩ :: back }
  | load {front back : List Job} {assignment : Assignment} {workbook : CompiledWorkbook}
      (hstopped : state.stopped = none)
      (hjobs : state.jobs = front ++ ⟨assignment, .reading⟩ :: back)
      (hload : Batch.prepare batch.rules state.tree assignment.input = .ok workbook) :
      Move batch room state { state with jobs := front ++ ⟨assignment, .writing workbook⟩ :: back }
  | loadFails {front back : List Job} {assignment : Assignment} {fault : Fault}
      (hstopped : state.stopped = none)
      (hjobs : state.jobs = front ++ ⟨assignment, .reading⟩ :: back)
      (hload : Batch.prepare batch.rules state.tree assignment.input = .error fault) :
      Move batch room state
        { state with jobs := front ++ ⟨assignment, .ended (.error fault)⟩ :: back }
  | write {front back : List Job} {assignment : Assignment} {workbook : CompiledWorkbook}
      {tree : FileTree} (hjobs : state.jobs = front ++ ⟨assignment, .writing workbook⟩ :: back)
      (hwrite : Batch.deliver batch.pretty state.tree assignment.output workbook = .ok tree) :
      Move batch room state
        { state with tree := tree, jobs := front ++ ⟨assignment, .ended (.ok workbook)⟩ :: back }
  | writeFails {front back : List Job} {assignment : Assignment} {workbook : CompiledWorkbook}
      {fault : Fault} (hjobs : state.jobs = front ++ ⟨assignment, .writing workbook⟩ :: back)
      (hwrite : Batch.deliver batch.pretty state.tree assignment.output workbook = .error fault) :
      Move batch room state
        { state with jobs := front ++ ⟨assignment, .ended (.error fault)⟩ :: back }
  | take {front back : List Job} {assignment : Assignment}
      {result : Except Fault CompiledWorkbook}
      (hstopped : state.stopped = none)
      (hjobs : state.jobs = front ++ ⟨assignment, .ended result⟩ :: back) :
      Move batch room state { state with
        jobs := front ++ ⟨assignment, .taken result⟩ :: back
        tally := state.tally.addResult result
        stopped := batch.stopAt? result }

variable {front back : List Job} {assignment : Assignment}

theorem advance?_append {job : Job} (h : state.jobs = front ++ job :: back) :
    state.jobs[front.length]? = some job ∧ ∀ stage, state.moveTo front.length job stage =
      { state with jobs := front ++ { job with stage := stage } :: back } := by
  refine ⟨?_, fun stage => ?_⟩
  · rw [h, List.getElem?_append_right (Nat.le_refl _), Nat.sub_self, List.getElem?_cons_zero]
  · rw [moveTo, h, List.set_append_right _ _ (Nat.le_refl _), Nat.sub_self, List.set_cons_zero]

theorem advance?_waiting (h : state.jobs = front ++ ⟨assignment, .waiting⟩ :: back) :
    advance? batch room state front.length =
      if state.stopped.isNone && state.admits room front.length then
        some { state with jobs := front ++ ⟨assignment, .reading⟩ :: back }
      else none := by
  simp only [advance?, advance?_append h, Option.bind_some]

theorem advance?_reading (h : state.jobs = front ++ ⟨assignment, .reading⟩ :: back) :
    advance? batch room state front.length =
      if state.stopped.isSome then none
      else match Batch.prepare batch.rules state.tree assignment.input with
        | .ok workbook =>
          some { state with jobs := front ++ ⟨assignment, .writing workbook⟩ :: back }
        | .error fault =>
          some { state with jobs := front ++ ⟨assignment, .ended (.error fault)⟩ :: back } := by
  rw [advance?, (advance?_append h).1, Option.bind_some]
  dsimp only
  cases Batch.prepare batch.rules state.tree assignment.input <;>
    simp only [(advance?_append h).2]

theorem advance?_writing {workbook : CompiledWorkbook}
    (h : state.jobs = front ++ ⟨assignment, .writing workbook⟩ :: back) :
    advance? batch room state front.length =
      match Batch.deliver batch.pretty state.tree assignment.output workbook with
      | .ok tree => some { state with
          tree := tree, jobs := front ++ ⟨assignment, .ended (.ok workbook)⟩ :: back }
      | .error fault =>
        some { state with jobs := front ++ ⟨assignment, .ended (.error fault)⟩ :: back } := by
  rw [advance?, (advance?_append h).1, Option.bind_some]
  dsimp only
  cases Batch.deliver batch.pretty state.tree assignment.output workbook <;>
    simp only [(advance?_append h).2]

theorem advance?_ended {result : Except Fault CompiledWorkbook}
    (h : state.jobs = front ++ ⟨assignment, .ended result⟩ :: back) :
    advance? batch room state front.length =
      if state.stopped.isSome then none
      else some { state with
        jobs := front ++ ⟨assignment, .taken result⟩ :: back
        tally := state.tally.addResult result
        stopped := batch.stopAt? result } := by
  simp only [advance?, advance?_append h, Option.bind_some]

theorem advance?_taken {result : Except Fault CompiledWorkbook}
    (h : state.jobs = front ++ ⟨assignment, .taken result⟩ :: back) :
    advance? batch room state front.length = none := by
  simp only [advance?, advance?_append h, Option.bind_some]

theorem exists_append_of_getElem? {jobs : List Job} {place : Nat} {job : Job}
    (h : jobs[place]? = some job) :
    ∃ front back, jobs = front ++ job :: back ∧ place = front.length := by
  obtain ⟨hlt, hget⟩ := List.getElem?_eq_some_iff.mp h
  refine ⟨jobs.take place, jobs.drop (place + 1), ?_, ?_⟩
  · rw [← hget, List.getElem_cons_drop, List.take_append_drop]
  · rw [List.length_take, Nat.min_eq_left (Nat.le_of_lt hlt)]

/-- Every move is one of these. -/
theorem move_of_advance? {place : Nat} (h : advance? batch room state place = some next) :
    Move batch room state next := by
  have hjob : ∃ job, state.jobs[place]? = some job := by
    rw [advance?, Option.bind_eq_some_iff] at h
    exact ⟨h.choose, h.choose_spec.1⟩
  obtain ⟨⟨assignment, stage⟩, hjob⟩ := hjob
  obtain ⟨front, back, hjobs, rfl⟩ := exists_append_of_getElem? hjob
  cases stage with
  | waiting =>
    rw [advance?_waiting hjobs] at h
    split at h
    · rename_i hadmits
      rw [Bool.and_eq_true, admits, Bool.and_eq_true, decide_eq_true_eq] at hadmits
      obtain rfl := Option.some.inj h
      exact .enter (Option.isNone_iff_eq_none.mp hadmits.1) hjobs hadmits.2.1
    · cases h
  | reading =>
    rw [advance?_reading hjobs] at h
    split at h
    · cases h
    · rename_i hstopped
      rw [Option.not_isSome_iff_eq_none] at hstopped
      split at h
      · rename_i hload
        obtain rfl := Option.some.inj h
        exact .load hstopped hjobs hload
      · rename_i hload
        obtain rfl := Option.some.inj h
        exact .loadFails hstopped hjobs hload
  | writing workbook =>
    rw [advance?_writing hjobs] at h
    split at h
    · rename_i hwrite
      obtain rfl := Option.some.inj h
      exact .write hjobs hwrite
    · rename_i hwrite
      obtain rfl := Option.some.inj h
      exact .writeFails hjobs hwrite
  | ended result =>
    rw [advance?_ended hjobs] at h
    split at h
    · cases h
    · rename_i hstopped
      obtain rfl := Option.some.inj h
      exact .take (Option.not_isSome_iff_eq_none.mp hstopped) hjobs
  | taken result =>
    rw [advance?_taken hjobs] at h
    cases h


/-! ## Schedules -/

theorem run?_cons (batch : Batch) (room : Nat) (state : Conversion) (place : Nat)
    (schedule : List Nat) : run? batch room state (place :: schedule) =
      (advance? batch room state place).bind fun next => run? batch room next schedule := rfl

theorem run?_append (batch : Batch) (room : Nat) (state : Conversion) (first second : List Nat) :
    run? batch room state (first ++ second) =
      (run? batch room state first).bind fun next => run? batch room next second :=
  List.foldlM_append

end Conversion

/-- The number of moves that a file has before it. -/
def Stage.movesLeft : Stage → Nat
  | waiting => 4
  | reading => 3
  | writing _ => 2
  | ended _ => 1
  | taken _ => 0

namespace Conversion

variable {batch : Batch} {room : Nat} {tree : FileTree} {plan : List Assignment}
  {state next : Conversion}

/-- The number of moves that all files have before them. -/
def movesLeft (state : Conversion) : Nat := (state.jobs.map fun job => job.stage.movesLeft).sum

theorem movesLeft_lt {front back : List Job} {assignment : Assignment} {stage other : Stage}
    (hstate : state.jobs = front ++ ⟨assignment, stage⟩ :: back)
    (hnext : next.jobs = front ++ ⟨assignment, other⟩ :: back)
    (h : other.movesLeft < stage.movesLeft) : next.movesLeft < state.movesLeft := by
  rw [movesLeft, movesLeft, hstate, hnext]
  simp only [List.map_append, List.map_cons, List.sum_append, List.sum_cons]
  omega

theorem movesLeft_start (tree : FileTree) (plan : List Assignment) :
    (start tree plan).movesLeft = 4 * plan.length := by
  rw [movesLeft, start, List.map_map]
  induction plan with
  | nil => rfl
  | cons assignment rest ih =>
    rw [List.map_cons, List.sum_cons, ih, List.length_cons]
    show 4 + _ = _
    omega

theorem Move.movesLeft_lt (h : Move batch room state next) : next.movesLeft < state.movesLeft := by
  cases h with
  | enter _ hjobs _ => exact Conversion.movesLeft_lt hjobs rfl (show 3 < 4 by decide)
  | load _ hjobs _ => exact Conversion.movesLeft_lt hjobs rfl (show 2 < 3 by decide)
  | loadFails _ hjobs _ => exact Conversion.movesLeft_lt hjobs rfl (show 1 < 3 by decide)
  | write hjobs _ => exact Conversion.movesLeft_lt hjobs rfl (show 1 < 2 by decide)
  | writeFails hjobs _ => exact Conversion.movesLeft_lt hjobs rfl (show 1 < 2 by decide)
  | take _ hjobs => exact Conversion.movesLeft_lt hjobs rfl (show 0 < 1 by decide)

/-- A schedule has no more moves than there are. -/
theorem length_add_movesLeft_le {schedule : List Nat}
    (h : run? batch room state schedule = some next) :
    schedule.length + next.movesLeft ≤ state.movesLeft := by
  induction schedule generalizing state with
  | nil =>
    obtain rfl := Option.some.inj h
    exact Nat.le_of_eq (Nat.zero_add _)
  | cons place schedule ih =>
    rw [run?_cons, Option.bind_eq_some_iff] at h
    obtain ⟨second, hsecond, hrest⟩ := h
    have hlt := (move_of_advance? hsecond).movesLeft_lt
    have hle := ih hrest
    rw [List.length_cons]
    omega

/-- A running file can make its next move. -/
theorem exists_advance?_of_isRunning (hstopped : state.stopped = none) {job : Job}
    (hjob : job ∈ state.jobs) (h : job.stage.isRunning = true) :
    ∃ place next, advance? batch room state place = some next := by
  obtain ⟨assignment, stage⟩ := job
  obtain ⟨front, back, hjobs⟩ := List.append_of_mem hjob
  refine ⟨front.length, ?_⟩
  cases stage with
  | waiting => cases h
  | reading =>
    rw [advance?_reading hjobs, hstopped]
    cases Batch.prepare batch.rules state.tree assignment.input with
    | error fault => exact ⟨_, rfl⟩
    | ok workbook => exact ⟨_, rfl⟩
  | writing workbook =>
    rw [advance?_writing hjobs]
    cases Batch.deliver batch.pretty state.tree assignment.output workbook with
    | error fault => exact ⟨_, rfl⟩
    | ok after => exact ⟨_, rfl⟩
  | ended result =>
    rw [advance?_ended hjobs, hstopped]
    exact ⟨_, rfl⟩
  | taken result => cases h

/-- Without running files there is room for the next one. -/
theorem admits_of_not_running (hroom : 0 < room)
    (h : ∀ job ∈ state.jobs, job.stage.isRunning = false) {front back : List Job} {job : Job}
    (hjobs : state.jobs = front ++ job :: back)
    (hfront : ∀ job ∈ front, job.stage.isWaiting = false) :
    state.admits room front.length = true := by
  have hnone : state.running = 0 := by
    rw [running, List.countP_eq_zero]
    intro job hjob
    rw [h job hjob]
    exact Bool.false_ne_true
  rw [admits, hnone, decide_eq_true hroom, Bool.true_and, hjobs, List.take_left, List.all_eq_true]
  intro job hjob
  rw [hfront job hjob]
  rfl

/-- As long as a batch is not finished, some file can make a move. -/
theorem exists_advance? (hroom : 0 < room) (h : state.isFinished = false) :
    ∃ place next, advance? batch room state place = some next := by
  rw [isFinished, Bool.or_eq_false_iff, Option.isSome_eq_false_iff, Option.isNone_iff_eq_none,
    List.all_eq_false] at h
  obtain ⟨hstopped, job, hjob, htaken⟩ := h
  by_cases hrunning : ∃ job ∈ state.jobs, job.stage.isRunning = true
  · obtain ⟨other, hother, hrunning⟩ := hrunning
    exact exists_advance?_of_isRunning hstopped hother hrunning
  · have hidle : ∀ job ∈ state.jobs, job.stage.isRunning = false :=
      fun job hjob => Bool.eq_false_iff.mpr fun h => hrunning ⟨job, hjob, h⟩
    -- what neither runs nor was taken is waiting
    have hwaiting : job.stage.isWaiting = true := by
      have hnot := hidle job hjob
      rw [Stage.isRunning] at hnot
      simpa [htaken] using hnot
    cases hfirst : state.jobs.find? fun job => job.stage.isWaiting with
    | none => exact absurd hwaiting (List.find?_eq_none.mp hfirst job hjob)
    | some first =>
      obtain ⟨hisWaiting, front, back, hjobs, hfront⟩ := List.find?_eq_some_iff_append.mp hfirst
      have hadmits := admits_of_not_running hroom hidle hjobs fun job hjob => by
        simpa using hfront job hjob
      obtain ⟨assignment, stage⟩ := first
      cases stage with
      | waiting =>
        have hmove := @advance?_waiting batch room state front back assignment hjobs
        rw [hstopped, hadmits, Option.isNone_none, Bool.and_self, if_pos rfl] at hmove
        exact ⟨front.length, _, hmove⟩
      | reading => cases hisWaiting
      | writing workbook => cases hisWaiting
      | ended result => cases hisWaiting
      | taken result => cases hisWaiting

/-- However far a batch has come, it can be finished. -/
theorem exists_finished (hroom : 0 < room) (state : Conversion) :
    ∃ schedule last, run? batch room state schedule = some last ∧ last.isFinished = true := by
  induction hmoves : state.movesLeft using Nat.strongRecOn generalizing state with
  | ind moves ih =>
    cases hfinished : state.isFinished with
    | true => exact ⟨[], state, rfl, hfinished⟩
    | false =>
      obtain ⟨place, next, hnext⟩ := @exists_advance? batch room state hroom hfinished
      have hlt := (move_of_advance? hnext).movesLeft_lt
      obtain ⟨schedule, last, hlast, hdone⟩ := ih _ (hmoves ▸ hlt) next rfl
      refine ⟨place :: schedule, last, ?_, hdone⟩
      rw [run?_cons, hnext]
      exact hlast

/-! ## One after another -/

/-- What a file comes to when it makes all its moves in a row. -/
def result (batch : Batch) (tree : FileTree) (assignment : Assignment) :
    Except Fault CompiledWorkbook :=
  (batch.convert tree assignment).map Prod.fst

/-- The tree that the conversion of a file leaves. -/
def treeAfter (batch : Batch) (tree : FileTree) (assignment : Assignment) : FileTree :=
  ((batch.convert tree assignment).toOption.map Prod.snd).getD tree

/-- A file makes its moves in a row, up to its result. -/
theorem exists_run?_ended (hstopped : state.stopped = none) {front back : List Job}
    {assignment : Assignment} (hjobs : state.jobs = front ++ ⟨assignment, .waiting⟩ :: back)
    (hadmits : state.admits room front.length = true) :
    ∃ schedule, run? batch room state schedule = some { state with
      tree := treeAfter batch state.tree assignment
      jobs := front ++ ⟨assignment, .ended (result batch state.tree assignment)⟩ :: back } := by
  have hadmit := @advance?_waiting batch room state front back assignment hjobs
  rw [hstopped, hadmits, Option.isNone_none, Bool.and_self, if_pos rfl] at hadmit
  have hread := fun state => @advance?_reading batch room state front back assignment
  rw [treeAfter, result, Batch.convert]
  cases hprepare : Batch.prepare batch.rules state.tree assignment.input with
  | error fault =>
    refine ⟨[front.length, front.length], ?_⟩
    rw [run?_cons, hadmit, Option.bind_some, run?_cons, hread _ rfl]
    simp only [hprepare, hstopped]
    rfl
  | ok workbook =>
    refine ⟨[front.length, front.length, front.length], ?_⟩
    rw [run?_cons, hadmit, Option.bind_some, run?_cons, hread _ rfl]
    simp only [hprepare, hstopped, Option.isSome_none, Bool.false_eq_true, if_false,
      Option.bind_some]
    rw [run?_cons, advance?_writing rfl]
    dsimp only
    cases Batch.deliver batch.pretty state.tree assignment.output workbook with
    | error fault => rfl
    | ok after => rfl

/-- A file makes all its moves in a row. -/
theorem exists_run?_file (hstopped : state.stopped = none) {front back : List Job}
    {assignment : Assignment} (hjobs : state.jobs = front ++ ⟨assignment, .waiting⟩ :: back)
    (hadmits : state.admits room front.length = true) :
    ∃ schedule, run? batch room state schedule = some
      { tree := treeAfter batch state.tree assignment
        jobs := front ++ ⟨assignment, .taken (result batch state.tree assignment)⟩ :: back
        tally := state.tally.addResult (result batch state.tree assignment)
        stopped := batch.stopAt? (result batch state.tree assignment) } := by
  obtain ⟨schedule, hschedule⟩ :=
    @exists_run?_ended batch room state hstopped front back assignment hjobs hadmits
  refine ⟨schedule ++ [front.length], ?_⟩
  rw [run?_append, hschedule, Option.bind_some, run?_cons, advance?_ended rfl, hstopped]
  rfl

/-- Converting one file after another is a schedule, however much room there is. -/
theorem exists_run?_convertAll (hroom : 0 < room) (batch : Batch) (rest : List Assignment) :
    ∀ state : Conversion, state.stopped = none →
      (∃ front, state.jobs = front ++ rest.map (fun assignment => { assignment := assignment }) ∧
        ∀ job ∈ front, job.stage.isTaken = true) →
      ∃ schedule last, run? batch room state schedule = some last ∧ last.isFinished = true ∧
        (last.tree, last.answer) = batch.convertAll state.tally state.tree rest := by
  induction rest with
  | nil =>
    rintro state hstopped ⟨front, hjobs, htaken⟩
    rw [List.map_nil, List.append_nil] at hjobs
    refine ⟨[], state, rfl, ?_, ?_⟩
    · rw [isFinished, hjobs, List.all_eq_true.mpr htaken, Bool.or_true]
    · rw [answer, hstopped, Batch.convertAll]
  | cons assignment rest ih =>
    rintro state hstopped ⟨front, hjobs, htaken⟩
    rw [List.map_cons] at hjobs
    have hadmits : state.admits room front.length = true := by
      refine admits_of_not_running hroom ?_ hjobs fun job hjob => ?_
      · rw [hjobs, List.forall_mem_append, List.forall_mem_cons, List.forall_mem_map]
        refine ⟨fun job hjob => ?_, rfl, fun _ _ => rfl⟩
        rw [Stage.isRunning, htaken job hjob, Bool.not_true, Bool.and_false]
      · obtain ⟨result, hresult⟩ := Stage.exists_of_isTaken (htaken job hjob)
        rw [hresult]
        rfl
    obtain ⟨first, hfirst⟩ := @exists_run?_file batch room state hstopped _ _ _ hjobs hadmits
    have hfront : ∀ result, ∃ more, front ++ ⟨assignment, .taken result⟩ ::
          rest.map (fun assignment => { assignment := assignment }) =
        more ++ rest.map (fun assignment => ({ assignment := assignment } : Job)) ∧
        ∀ job ∈ more, job.stage.isTaken = true := by
      intro result
      refine ⟨front ++ [⟨assignment, .taken result⟩], by simp, ?_⟩
      rw [List.forall_mem_append, List.forall_mem_singleton]
      exact ⟨htaken, rfl⟩
    rw [Batch.convertAll]
    cases hconvert : batch.convert state.tree assignment with
    | ok converted =>
      rw [treeAfter, result, hconvert] at hfirst
      obtain ⟨schedule, last, hrun, hlast⟩ := ih
        { tree := converted.2, jobs := _, tally := state.tally.addWorkbook converted.1 } rfl
        (hfront (.ok converted.1))
      refine ⟨first ++ schedule, last, ?_, hlast⟩
      rw [run?_append, hfirst]
      exact hrun
    | error fault =>
      rw [treeAfter, result, hconvert] at hfirst
      simp only [Except.map, Except.toOption, Option.map_none, Option.getD_none] at hfirst
      cases hstop : batch.failFast with
      | true =>
        refine ⟨first, _, hfirst, ?_, ?_⟩
        · simp only [isFinished, Batch.stopAt?, hstop, if_true, Option.isSome_some, Bool.true_or]
        · simp only [answer, Batch.stopAt?, hstop, if_true]
      | false =>
        have hnone : batch.stopAt? (.error fault) = none := by
          simp only [Batch.stopAt?, hstop, Bool.false_eq_true, if_false]
        rw [hnone] at hfirst
        obtain ⟨schedule, last, hrun, hlast⟩ := ih
          { tree := state.tree, jobs := _, tally := state.tally.addFailure } rfl
          (hfront (.error fault))
        refine ⟨first ++ schedule, last, ?_, hlast⟩
        rw [run?_append, hfirst]
        exact hrun

end Conversion

end SheetCompiler
