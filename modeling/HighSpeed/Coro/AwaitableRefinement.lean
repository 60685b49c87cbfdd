import Mathlib.Data.List.Perm.Basic
import HighSpeed.Lib.Run
import HighSpeed.Coro.Awaitable

/-!
Every run of a tree of `Awaitable` coroutines from `co_spawn` is a run of the call-stack machine
`Call`, with the pool's taking of a task as the one extra kind of step.
-/

namespace HighSpeed

namespace Awaitable

variable {α ε : Type}

def Chain (s : State α ε) : Nat → List Nat → List (Except ε α → Body α ε) → Prop
  | leaf, [], [] => leaf = 0 ∧ ∃ frame, s.frames 0 = some frame ∧ frame.awaiting = none
  | leaf, parent :: handles, rest :: stack => ∃ frame waiting child,
      s.frames leaf = some frame ∧ frame.awaiting = some parent ∧ parent < leaf ∧
      s.frames parent = some waiting ∧ waiting.status = .suspended ∧
      waiting.awaiter = some leaf ∧ waiting.body = .await child rest ∧
      waiting.value = none ∧ waiting.exception = none ∧ Chain s parent handles stack
  | _, _, _ => False

theorem Chain.congr {s t : State α ε} (handles : List Nat) :
    ∀ (stack : List (Except ε α → Body α ε)) (leaf : Nat), Chain s leaf handles stack →
      (∀ handle, handle < leaf → t.frames handle = s.frames handle) →
      (∀ frame, s.frames leaf = some frame →
        ∃ other, t.frames leaf = some other ∧ other.awaiting = frame.awaiting) →
      Chain t leaf handles stack := by
  induction handles with
  | nil =>
      intro stack leaf chain _ awaits
      cases stack with
      | nil =>
          obtain ⟨root, frame, found, top⟩ := chain
          obtain ⟨other, moved, same⟩ := awaits frame (root ▸ found)
          exact ⟨root, other, root ▸ moved, same.trans top⟩
      | cons rest stack => exact chain.elim
  | cons parent handles ih =>
      intro stack leaf chain kept awaits
      cases stack with
      | nil => exact chain.elim
      | cons rest stack =>
          obtain ⟨frame, waiting, child, found, awaiting, below, parentFound, suspended, awaiter,
            body, noValue, noException, chain⟩ := chain
          obtain ⟨other, moved, same⟩ := awaits frame found
          have parentKept := kept parent below
          refine ⟨other, waiting, child, moved, same.trans awaiting, below,
            parentKept.trans parentFound, suspended, awaiter, body, noValue, noException, ?_⟩
          exact ih stack parent chain (fun handle lower => kept handle (Nat.lt_trans lower below))
            (fun frame found => ⟨frame, parentKept.trans found, rfl⟩)

theorem Chain.root {s : State α ε} {leaf : Nat} {stack : List (Except ε α → Body α ε)}
    (chain : Chain s leaf [] stack) : leaf = 0 ∧ stack = [] := by
  cases stack with
  | nil => exact ⟨chain.1, rfl⟩
  | cons rest stack => exact chain.elim

theorem executors_update {frames : Nat → Option (Frame α ε)} {pool : Nat}
    (executors : ∀ handle frame, frames handle = some frame → frame.executor = some pool)
    (target : Nat) {moved : Frame α ε} (movedExecutor : moved.executor = some pool) :
    ∀ handle frame, Function.update frames target (some moved) handle = some frame →
      frame.executor = some pool := by
  intro handle frame found
  by_cases itself : handle = target
  · rw [itself, Function.update_self, Option.some.injEq] at found
    rw [← found]
    exact movedExecutor
  · rw [Function.update_of_ne itself] at found
    exact executors handle frame found

theorem idle_update_none {workers : Nat → Option Nat} {worker : Nat}
    (idle : ∀ other, other ≠ worker → workers other = none) :
    ∀ other, Function.update workers worker none other = none := by
  intro other
  by_cases itself : other = worker
  · rw [itself, Function.update_self]
  · rw [Function.update_of_ne itself]
    exact idle other itself

theorem resumed_append {resumes : List (Nat × Status)}
    (resumed : ∀ entry ∈ resumes, entry.2 = .suspended) {handle : Nat} {status : Status}
    (suspended : status = .suspended) :
    ∀ entry ∈ resumes ++ [(handle, status)], entry.2 = .suspended := by
  intro entry member
  rcases List.mem_append.mp member with earlier | this
  · exact resumed entry earlier
  · rw [List.mem_singleton.mp this]
    exact suspended

inductive Phase where
  | queued
  | running (worker : Nat)
  | done

section
@[local simp]
def Phase.weight : Phase → Nat
  | .queued => 2
  | .running _ => 1
  | .done => 0

@[local simp]
def Phase.waiting (leaf : Nat) : Phase → List Nat
  | .queued => [leaf]
  | _ => []
end

def Placed (threadsNum : Nat) (s : State α ε) (leaf : Nat) (frame : Frame α ε) : Phase → Prop
  | .queued => frame.status = .suspended ∧ frame.awaiter = none ∧ frame.value = none ∧
      frame.exception = none ∧ s.tasks = [leaf] ∧ ∀ worker, s.workers worker = none
  | .running worker => frame.status = .running ∧ frame.value = none ∧ frame.exception = none ∧
      worker < threadsNum ∧ s.tasks = [] ∧ s.workers worker = some leaf ∧
      ∀ other, other ≠ worker → s.workers other = none
  | .done => frame.status = .final ∧ s.tasks = [] ∧ ∀ worker, s.workers worker = none

section Simulation

variable (badOptionalAccess : ε) (pool threadsNum : Nat)

structure Simulates (s : State α ε) (call : Call α ε) (leaf : Nat) (handles : List Nat)
    (phase : Phase) : Prop where
  chain : Chain s leaf handles call.stack
  leafBelow : leaf < s.nextHandle
  leafFrame : ∃ frame, s.frames leaf = some frame ∧ frame.body = call.focus ∧
    Placed threadsNum s leaf frame phase ∧
    (phase = .done → handles = [] ∧ awaitResume badOptionalAccess frame = call.result)
  executors : ∀ handle frame, s.frames handle = some frame → frame.executor = some pool
  resumed : ∀ entry ∈ s.resumes, entry.2 = .suspended
  matched : (s.resumes.map Prod.fst ++ handles ++ phase.waiting leaf).Perm s.suspensions
  notAborted : s.aborted = false

theorem coSpawn_simulates (root : Body α ε) :
    Simulates badOptionalAccess pool threadsNum (coSpawn pool root) ⟨root, []⟩ 0 [] .queued where
  chain := ⟨rfl, _, rfl, rfl⟩
  leafBelow := Nat.one_pos
  leafFrame := ⟨_, rfl, rfl, ⟨rfl, rfl, rfl, rfl, rfl, fun _ => rfl⟩, fun done => nomatch done⟩
  executors := by
    intro handle frame found
    simp only [coSpawn] at found
    split at found
    · cases found
      rfl
    · cases found
  resumed := fun _ absent => absurd absent List.not_mem_nil
  matched := List.Perm.refl _
  notAborted := rfl

variable {badOptionalAccess pool threadsNum}

theorem Chain.leaf_update {s t : State α ε} {leaf : Nat} {handles : List Nat}
    {stack : List (Except ε α → Body α ε)} (chain : Chain s leaf handles stack)
    {frame moved : Frame α ε} (found : s.frames leaf = some frame)
    (frames : t.frames = Function.update s.frames leaf (some moved))
    (awaiting : moved.awaiting = frame.awaiting) : Chain t leaf handles stack :=
  Chain.congr handles stack leaf chain
    (fun handle below => by rw [frames, Function.update_of_ne (Nat.ne_of_lt below)])
    (fun other otherFound => ⟨moved, by rw [frames, Function.update_self], by
      rw [found] at otherFound
      cases otherFound
      exact awaiting⟩)

theorem Chain.leaf_update_above {s t : State α ε} {leaf above : Nat} {handles : List Nat}
    {stack : List (Except ε α → Body α ε)} (chain : Chain s leaf handles stack)
    {frame moved : Frame α ε} {written : Option (Frame α ε)} (found : s.frames leaf = some frame)
    (higher : leaf < above)
    (frames : t.frames = Function.update (Function.update s.frames above written) leaf (some moved))
    (awaiting : moved.awaiting = frame.awaiting) : Chain t leaf handles stack :=
  Chain.congr handles stack leaf chain
    (fun handle below => by
      rw [frames, Function.update_of_ne (Nat.ne_of_lt below),
        Function.update_of_ne (Nat.ne_of_lt (Nat.lt_trans below higher))])
    (fun other otherFound => ⟨moved, by rw [frames, Function.update_self], by
      rw [found] at otherFound
      cases otherFound
      exact awaiting⟩)

theorem Simulates.take {s t : State α ε} {call : Call α ε} {leaf : Nat} {handles : List Nat}
    {worker : Nat} (sim : Simulates badOptionalAccess pool threadsNum s call leaf handles .queued)
    (stepped : step badOptionalAccess threadsNum s (.take worker) = some t) :
    Simulates badOptionalAccess pool threadsNum t call leaf handles (.running worker) := by
  obtain ⟨frame, found, body, placed, -⟩ := sim.leafFrame
  obtain ⟨suspended, -, noValue, noException, queue, idle⟩ := placed
  by_cases below : worker < threadsNum
  · simp only [step, sim.notAborted, idle worker, below, queue, found, and_self, if_true,
      Option.map_some, Option.some.injEq] at stepped
    subst stepped
    refine ⟨sim.chain.leaf_update found rfl rfl, sim.leafBelow, ⟨_, Function.update_self .., body,
      ⟨rfl, noValue, noException, below, rfl, Function.update_self .., fun other different => ?_⟩,
      fun done => nomatch done⟩, executors_update sim.executors leaf (sim.executors leaf frame found),
      resumed_append sim.resumed suspended, ?_, rfl⟩
    · dsimp only
      rw [Function.update_of_ne different]
      exact idle other
    · -- the leaf's resume replaces its wait in the queue
      have matched := sim.matched
      simp only [Phase.waiting, List.map_append, List.map_singleton, List.append_nil] at matched ⊢
      refine List.Perm.trans ?_ matched
      rw [List.append_assoc, List.append_assoc]
      exact List.Perm.append_left _ List.perm_append_comm
  · simp only [step, below, and_false, false_and, if_false] at stepped
    cases stepped

theorem Simulates.coAwait {s : State α ε} {call : Call α ε} {leaf : Nat} {handles : List Nat}
    {worker : Nat} (sim : Simulates badOptionalAccess pool threadsNum s call leaf handles
      (.running worker))
    {frame : Frame α ε} (found : s.frames leaf = some frame) {child : Body α ε}
    {rest : Except ε α → Body α ε} (body : frame.body = .await child rest) :
    Simulates badOptionalAccess pool threadsNum (awaitSuspend s worker leaf frame child)
      ⟨child, rest :: call.stack⟩ s.nextHandle (leaf :: handles) .queued := by
  obtain ⟨frame', found', -, placed, -⟩ := sim.leafFrame
  rw [found, Option.some.injEq] at found'
  subst found'
  obtain ⟨-, noValue, noException, -, queue, -, idle⟩ := placed
  have executor := sim.executors leaf frame found
  have fresh : s.nextHandle ≠ leaf := Nat.ne_of_gt sim.leafBelow
  rw [awaitSuspend_of_executor child executor]
  have childFound : (Function.update (Function.update s.frames s.nextHandle
      (some (⟨.suspended, child, some pool, some leaf, none, none, none⟩ : Frame α ε)))
      leaf (some { frame with status := .suspended, awaiter := some s.nextHandle }))
      s.nextHandle = some ⟨.suspended, child, some pool, some leaf, none, none, none⟩ := by
    rw [Function.update_of_ne fresh, Function.update_self]
  refine ⟨⟨_, _, child, childFound, rfl, sim.leafBelow, Function.update_self .., rfl, rfl,
      body, noValue, noException, sim.chain.leaf_update_above found sim.leafBelow rfl rfl⟩,
    Nat.lt_succ_self _,
    ⟨_, childFound, rfl, ⟨rfl, rfl, rfl, rfl, by rw [queue]; rfl, idle_update_none idle⟩,
      fun done => nomatch done⟩,
    executors_update (executors_update sim.executors s.nextHandle rfl) leaf executor,
    sim.resumed, ?_, sim.notAborted⟩
  · -- the child waits for its first resume, the caller for the end of the child
    have matched := sim.matched
    simp only [Phase.waiting, List.append_nil] at matched ⊢
    refine List.Perm.trans ?_ (matched.append_right [s.nextHandle, leaf])
    simp only [List.append_assoc, List.cons_append]
    refine List.Perm.append_left _ ?_
    have moved := (List.perm_append_singleton leaf (handles ++ [s.nextHandle])).symm
    simpa only [List.append_assoc, List.singleton_append] using moved

theorem Simulates.finish {s : State α ε} {call : Call α ε} {leaf : Nat} {handles : List Nat}
    {worker : Nat} (sim : Simulates badOptionalAccess pool threadsNum s call leaf handles
      (.running worker))
    {frame : Frame α ε} (found : s.frames leaf = some frame) {outcome : Except ε α}
    (finished : call.focus.finished? = some outcome) (stored : Frame α ε)
    (storedAwaiting : stored.awaiting = frame.awaiting)
    (storedExecutor : stored.executor = frame.executor) (storedBody : stored.body = frame.body)
    (reads : awaitResume badOptionalAccess stored = outcome) :
    ∃ next nextLeaf nextHandles nextPhase,
      Simulates badOptionalAccess pool threadsNum (finalSuspend badOptionalAccess s worker leaf stored)
        next nextLeaf nextHandles nextPhase ∧
      next.result = call.result ∧ 2 * next.cost + nextPhase.weight < 2 * call.cost + 1 := by
  obtain ⟨frame', found', focus, placed, -⟩ := sim.leafFrame
  rw [found, Option.some.injEq] at found'
  subst found'
  obtain ⟨-, -, -, below, queue, working, idle⟩ := placed
  have executor := sim.executors leaf frame found
  obtain ⟨focusBody, stack⟩ := call
  cases handles with
  | nil =>
      obtain ⟨root, stackNil⟩ := sim.chain.root
      subst root stackNil
      obtain ⟨-, rootFrame, rootFound, unawaited⟩ := sim.chain
      rw [found, Option.some.injEq] at rootFound
      subst rootFound
      rw [finalSuspend_unawaited badOptionalAccess (storedAwaiting.trans unawaited)]
      refine ⟨⟨focusBody, []⟩, 0, [], .done, ⟨⟨rfl, _, rfl, storedAwaiting.trans
        unawaited⟩, sim.leafBelow, ⟨{ stored with status := .final }, rfl,
        storedBody.trans focus,
        ⟨rfl, queue, idle_update_none idle⟩, fun _ => ⟨rfl, ?_⟩⟩,
        executors_update sim.executors 0 (storedExecutor.trans executor), sim.resumed, sim.matched,
        sim.notAborted⟩, rfl, by simp only [Phase.weight]; omega⟩
      rw [← Body.eval_of_finished finished] at reads
      exact reads
  | cons parent handles =>
      cases stack with
      | nil => exact sim.chain.elim
      | cons rest stack =>
          obtain ⟨frame', waiting, child, found', awaited, parentBelow, parentFound, suspended,
            holds, waitingBody, waitingValue, waitingException, chain⟩ := sim.chain
          rw [found, Option.some.injEq] at found'
          subst found'
          have other : parent ≠ leaf := Nat.ne_of_lt parentBelow
          rw [finalSuspend_awaited badOptionalAccess (storedAwaiting.trans awaited) other
            parentFound holds, reads, waitingBody]
          have machine := Call.step_finished finished rest stack
          refine ⟨⟨rest outcome, stack⟩, parent, handles, .running worker,
            ⟨chain.leaf_update_above parentFound parentBelow rfl rfl,
              Nat.lt_trans parentBelow sim.leafBelow,
              ⟨_, Function.update_self .., rfl, ⟨rfl, waitingValue, waitingException, below, queue,
                Function.update_self .., fun other different => ?_⟩, fun done => nomatch done⟩,
              executors_update (executors_update sim.executors leaf
                (by exact storedExecutor.trans executor)) parent
                (by exact sim.executors parent waiting parentFound),
              resumed_append sim.resumed suspended, ?_, sim.notAborted⟩,
            Call.result_step machine, ?_⟩
          · dsimp only
            rw [Function.update_of_ne different]
            exact idle other different
          · -- the caller's resume matches its suspension at the `co_await`
            have matched := sim.matched
            simp only [Phase.waiting, List.map_append, List.map_singleton, List.append_nil,
              List.append_assoc, List.singleton_append] at matched ⊢
            exact matched
          · have cost := Call.cost_step machine
            dsimp only [Phase.weight] at cost ⊢
            omega

theorem simulates_step {s t : State α ε} {call : Call α ε} {leaf : Nat} {handles : List Nat}
    {phase : Phase} {label : Label}
    (sim : Simulates badOptionalAccess pool threadsNum s call leaf handles phase)
    (stepped : step badOptionalAccess threadsNum s label = some t) :
    ∃ next nextLeaf nextHandles nextPhase,
      Simulates badOptionalAccess pool threadsNum t next nextLeaf nextHandles nextPhase ∧
      next.result = call.result ∧ 2 * next.cost + nextPhase.weight < 2 * call.cost + phase.weight := by
  obtain ⟨frame, found, focus, placed, -⟩ := sim.leafFrame
  cases phase with
  | queued =>
      obtain ⟨-, -, -, -, -, idle⟩ := placed
      cases label with
      | take worker =>
          exact ⟨call, leaf, handles, .running worker, sim.take stepped, rfl, by
            simp only [Phase.weight]; omega⟩
      | run worker => simp [step, idle worker] at stepped
  | running worker =>
      obtain ⟨-, -, noException, -, queue, working, idle⟩ := placed
      cases label with
      | take other => simp [step, queue] at stepped
      | run other =>
          by_cases same : other = worker
          · subst same
            simp only [step, sim.notAborted, working, found, if_true, Option.map_some,
              Option.some.injEq] at stepped
            subst stepped
            cases body : frame.body with
            | await child rest =>
                have machine : call.step = some ⟨child, rest :: call.stack⟩ := by
                  unfold Call.step
                  rw [← focus, body]
                have cost := Call.cost_step machine
                exact ⟨_, _, _, _, sim.coAwait found body, Call.result_step machine, by
                  simp only [Phase.weight]; omega⟩
            | ret value =>
                exact sim.finish found (by rw [← focus, body]; rfl) _ rfl rfl body.symm
                  (by simp only [awaitResume, noException])
            | throw error =>
                exact sim.finish found (by rw [← focus, body]; rfl) _ rfl rfl body.symm rfl
          · simp [step, idle other same] at stepped
  | done =>
      obtain ⟨-, queue, idle⟩ := placed
      cases label with
      | take worker => simp [step, queue] at stepped
      | run worker => simp [step, idle worker] at stepped

theorem simulates_exec (labels : List Label) :
    ∀ (s t : State α ε) (call : Call α ε) (leaf : Nat) (handles : List Nat) (phase : Phase),
      Simulates badOptionalAccess pool threadsNum s call leaf handles phase →
      Run.exec (step badOptionalAccess threadsNum) s labels = some t →
      ∃ next nextLeaf nextHandles nextPhase,
        Simulates badOptionalAccess pool threadsNum t next nextLeaf nextHandles nextPhase ∧
        next.result = call.result ∧
        labels.length + 2 * next.cost + nextPhase.weight ≤ 2 * call.cost + phase.weight := by
  induction labels with
  | nil =>
      intro s t call leaf handles phase sim ran
      rw [Run.exec_nil, Option.some.injEq] at ran
      subst ran
      exact ⟨call, leaf, handles, phase, sim, rfl, by simp⟩
  | cons label labels ih =>
      intro s t call leaf handles phase sim ran
      rw [Run.exec_cons, Option.bind_eq_some_iff] at ran
      obtain ⟨middle, stepped, rest⟩ := ran
      obtain ⟨call', leaf', handles', phase', sim', result', lower⟩ := simulates_step sim stepped
      obtain ⟨next, nextLeaf, nextHandles, nextPhase, simNext, result, bound⟩ :=
        ih middle t call' leaf' handles' phase' sim' rest
      refine ⟨next, nextLeaf, nextHandles, nextPhase, simNext, result.trans result', ?_⟩
      simp only [List.length_cons]
      omega

theorem Simulates.enabled {s : State α ε} {call : Call α ε} {leaf : Nat} {handles : List Nat}
    {phase : Phase} (someWorker : 0 < threadsNum)
    (sim : Simulates badOptionalAccess pool threadsNum s call leaf handles phase)
    (notDone : phase ≠ .done) : ∃ label t, step badOptionalAccess threadsNum s label = some t := by
  obtain ⟨frame, found, -, placed, -⟩ := sim.leafFrame
  cases phase with
  | queued =>
      obtain ⟨-, -, -, -, queue, idle⟩ := placed
      exact ⟨.take 0, by simp [step, sim.notAborted, idle 0, someWorker, queue, found]⟩
  | running worker =>
      obtain ⟨-, -, -, -, -, working, -⟩ := placed
      exact ⟨.run worker, by simp [step, sim.notAborted, working, found]⟩
  | done => exact absurd rfl notDone

end Simulation

/-- Take any tree of `Awaitable` coroutines, given by the root's body, started by `co_spawn` on
a pool of at least one worker, and any run of the pool. No `assert(p.executor)` fails; every
`resume()` finds its frame suspended, and once the run can go no further each suspension has
been matched by one resume; every frame has the pool as executor; the run has at most
`2 * root.cost + 2` steps; and once no step can be taken, the root is at `final_suspend` with
what its body computes when every `co_await` of a child is a direct call. -/
theorem co_await_is_call (badOptionalAccess : ε) (pool threadsNum : Nat)
    (someWorker : 0 < threadsNum) (root : Body α ε) (labels : List Label) (s : State α ε)
    (ran : Run.exec (step badOptionalAccess threadsNum) (coSpawn pool root) labels = some s) :
    s.aborted = false ∧ (∀ entry ∈ s.resumes, entry.2 = .suspended) ∧
      (∀ handle frame, s.frames handle = some frame → frame.executor = some pool) ∧
      labels.length ≤ 2 * root.cost + 2 ∧
      ((∀ label, step badOptionalAccess threadsNum s label = none) →
        (∃ frame, s.frames 0 = some frame ∧ frame.status = .final ∧
          awaitResume badOptionalAccess frame = root.eval) ∧
        (s.resumes.map Prod.fst).Perm s.suspensions) := by
  obtain ⟨next, leaf, handles, phase, sim, result, bound⟩ :=
    simulates_exec labels _ s _ _ _ _ (coSpawn_simulates badOptionalAccess pool threadsNum root) ran
  refine ⟨sim.notAborted, sim.resumed, sim.executors, ?_, fun stuck => ?_⟩
  · have initialCost : (⟨root, []⟩ : Call α ε).cost = root.cost := Nat.add_zero _
    simp only [Phase.weight, initialCost] at bound
    omega
  · -- a pool that can take no step has run the root to its end
    have done : phase = .done := by
      by_contra notDone
      obtain ⟨label, t, stepped⟩ := sim.enabled someWorker notDone
      rw [stuck label] at stepped
      cases stepped
    subst done
    obtain ⟨frame, found, -, ⟨final, -, -⟩, outcome⟩ := sim.leafFrame
    obtain ⟨noCallers, reads⟩ := outcome rfl
    subst noCallers
    obtain ⟨root, -⟩ := sim.chain.root
    subst root
    have matched := sim.matched
    simp only [Phase.waiting, List.append_nil] at matched
    exact ⟨⟨frame, found, final, reads.trans result⟩, matched⟩

/-- A root that awaits a child returning 2 and returns one more: one worker runs the root to
its `co_await`, the child to its end, which resumes the root, and the root to its end. -/
theorem co_await_is_call_plus_one :
    ∃ s, Run.exec (step "bad_optional_access" 1)
        (coSpawn 0 (Body.await (.ret 2) fun (outcome : Except String Nat) => match outcome with
          | .ok value => .ret (value + 1)
          | .error error => .throw error))
        [.take 0, .run 0, .take 0, .run 0, .run 0] = some s ∧
      (s.aborted = false ∧ (∀ entry ∈ s.resumes, entry.2 = .suspended) ∧
        (∀ handle frame, s.frames handle = some frame → frame.executor = some 0) ∧
        [Label.take 0, .run 0, .take 0, .run 0, .run 0].length ≤
          2 * (Body.await (.ret 2) fun (outcome : Except String Nat) => match outcome with
            | .ok value => .ret (value + 1)
            | .error error => .throw error).cost + 2 ∧
        ((∀ label, step "bad_optional_access" 1 s label = none) →
          (∃ frame, s.frames 0 = some frame ∧ frame.status = .final ∧
            awaitResume "bad_optional_access" frame =
              (Body.await (.ret 2) fun (outcome : Except String Nat) => match outcome with
                | .ok value => .ret (value + 1)
                | .error error => .throw error).eval) ∧
          (s.resumes.map Prod.fst).Perm s.suspensions)) :=
  ⟨_, rfl, co_await_is_call "bad_optional_access" 0 1 Nat.one_pos _
    [.take 0, .run 0, .take 0, .run 0, .run 0] _ rfl⟩

end Awaitable

end HighSpeed
