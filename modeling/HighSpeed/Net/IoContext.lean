import Mathlib.Logic.Function.Basic
import HighSpeed.Lib.Run

/-!
`IOContext` of `net/IOContext.hpp` with the coroutines of `net/Socket.hpp` that suspend through
it, as an interleaving of atomic steps.
-/

namespace HighSpeed

namespace IOContext

def epollIn : Nat := 1

def epollOut : Nat := 4

structure Waiter where
  handle : Option Nat := none
  events : Nat := 0
deriving DecidableEq

inductive IoOp where
  | read
  | write
  | accept
deriving DecidableEq

def IoOp.event : IoOp → Nat
  | .read => epollIn
  | .write => epollOut
  | .accept => epollIn

inductive Pc where
  | idle
  | trying (op : IoOp)
  | gettingEvents (op : IoOp)
  | suspending (op : IoOp) (events : Nat)
  | suspended (op : IoOp) (events : Nat)
deriving DecidableEq

structure State where
  pc : Nat → Pc
  waiters : Nat → Option Waiter
  interest : Nat → Option Nat
  ready : Nat → Nat
  modifies : List (Nat × Nat)
  batch : List Nat
  executor : List (Option Nat)

def initial : State :=
  ⟨fun _ => .idle, fun _ => none, fun _ => some epollIn, fun _ => 0, [], [], []⟩

namespace State

def getEvents (s : State) (fd : Nat) : State × Nat :=
  let waiter := (s.waiters fd).getD {}
  ({ s with waiters := Function.update s.waiters fd (some waiter) }, waiter.events)

section
/-- The assignment of `FdAwaiter::await_suspend`, which leaves its `ev_->modify` pending. -/
@[local simp]
def awaitSuspend (s : State) (fd events coroutine : Nat) : State :=
  { s with
    waiters := Function.update s.waiters fd (some ⟨some coroutine, events⟩)
    modifies := s.modifies ++ [(fd, events)] }
end

def finishModify (s : State) (fd events : Nat) : State :=
  match s.interest fd with
  | some _ => { s with interest := Function.update s.interest fd (some events) }
  | none => { s with waiters := Function.update s.waiters fd none }

/-- One iteration of the `for` loop of `run()`, all of it under `waitter_mtx_`. -/
def dispatch (s : State) : Option State :=
  match s.batch with
  | [] => none
  | fd :: rest =>
      match s.waiters fd with
      | none => some { s with batch := rest }
      | some waiter =>
          some { s with
            batch := rest
            waiters := Function.update s.waiters fd none
            executor := s.executor ++ [waiter.handle] }

def removeFd (s : State) (fd : Nat) : State :=
  { s with
    waiters := Function.update s.waiters fd none
    interest := Function.update s.interest fd none }

def reported (s : State) (fd : Nat) : Bool :=
  match s.interest fd with
  | some mask => mask &&& s.ready fd != 0
  | none => false

end State

inductive Label where
  | start (coroutine : Nat) (op : IoOp)
  | tryIo (coroutine : Nat)
  | getEvents (coroutine : Nat)
  | suspend (coroutine : Nat)
  | modify (index : Nat)
  | wait (fds : List Nat)
  | dispatch
  | resume (index : Nat)
  | removeFd (fd : Nat)
  | setReady (fd events : Nat)

section
@[local simp]
def step (fdOf : Nat → Nat) (s : State) : Label → Option State
  | .start coroutine op =>
      match s.pc coroutine with
      | .idle => some { s with pc := Function.update s.pc coroutine (.trying op) }
      | _ => none
  | .tryIo coroutine =>
      match s.pc coroutine with
      | .trying op =>
          let next : Pc :=
            if s.ready (fdOf coroutine) &&& op.event != 0 then .idle
            else match op with
              | .accept => .suspending .accept epollIn
              | op => .gettingEvents op
          some { s with pc := Function.update s.pc coroutine next }
      | _ => none
  | .getEvents coroutine =>
      match s.pc coroutine with
      | .gettingEvents op =>
          let read := s.getEvents (fdOf coroutine)
          some { read.1 with
            pc := Function.update s.pc coroutine (.suspending op (read.2 ||| op.event)) }
      | _ => none
  | .suspend coroutine =>
      match s.pc coroutine with
      | .suspending op events =>
          some { s.awaitSuspend (fdOf coroutine) events coroutine with
            pc := Function.update s.pc coroutine (.suspended op events) }
      | _ => none
  | .modify index =>
      match s.modifies[index]? with
      | some (fd, events) =>
          some ({ s with modifies := s.modifies.eraseIdx index }.finishModify fd events)
      | none => none
  | .wait fds => if s.batch = [] ∧ fds.all s.reported then some { s with batch := fds } else none
  | .dispatch => s.dispatch
  | .resume index =>
      match s.executor[index]? with
      | some handle =>
          let s := { s with executor := s.executor.eraseIdx index }
          match handle with
          | some coroutine =>
              match s.pc coroutine with
              | .suspended op _ => some { s with pc := Function.update s.pc coroutine (.trying op) }
              | _ => some s
          | none => some s
      | none => none
  | .removeFd fd => some (s.removeFd fd)
  | .setReady fd events => some { s with ready := Function.update s.ready fd events }
end

theorem reader_overwritten_by_writer :
    ∃ final, Run.exec (step fun _ => 5) initial
        [.start 0 .read, .tryIo 0, .getEvents 0, .suspend 0, .modify 0,
          .start 1 .write, .tryIo 1, .getEvents 1, .suspend 1] = some final ∧
      final.pc 0 = .suspended .read epollIn ∧
      final.waiters 5 = some ⟨some 1, epollIn ||| epollOut⟩ ∧
      final.executor = [] ∧ final.interest 5 = some epollIn :=
  ⟨_, rfl, rfl, rfl, rfl, rfl⟩

/-- A reader gets `EAGAIN` and data arrives; its `get_events` inserts a `Waiter` with a null
handle, epoll reports the fd, and `run()` hands the null handle to the executor. -/
theorem null_handle_dispatched :
    ∃ final, Run.exec (step fun _ => 5) initial
        [.start 0 .read, .tryIo 0, .setReady 5 epollIn, .getEvents 0, .wait [5], .dispatch] =
          some final ∧
      final.executor = [none] ∧ final.pc 0 = .suspending .read epollIn :=
  ⟨_, rfl, rfl, rfl⟩

/-! ## When no two coroutines share an fd -/

section EraseIdx

variable {α : Type} [BEq α] {l : List α} {index : Nat} {entry : α}

theorem count_eraseIdx (found : l[index]? = some entry) (b : α) :
    (l.eraseIdx index).count b + (if entry == b then 1 else 0) = l.count b := by
  obtain ⟨bound, atIndex⟩ := List.getElem?_eq_some_iff.mp found
  have split : l = l.take index ++ entry :: l.drop (index + 1) := by
    rw [← atIndex, ← List.drop_eq_getElem_cons bound, List.take_append_drop]
  calc (l.eraseIdx index).count b + (if entry == b then 1 else 0)
      = (l.take index ++ entry :: l.drop (index + 1)).count b := by
        rw [List.eraseIdx_eq_take_drop_succ, List.count_append, List.count_append,
          List.count_cons]
        omega
    _ = l.count b := by rw [← split]

theorem count_eraseIdx_self [LawfulBEq α] (found : l[index]? = some entry) :
    (l.eraseIdx index).count entry + 1 = l.count entry := by
  have counted := count_eraseIdx found entry
  rwa [beq_self_eq_true, if_pos rfl] at counted

theorem count_eraseIdx_of_ne [LawfulBEq α] (found : l[index]? = some entry) {b : α} (other : entry ≠ b) :
    (l.eraseIdx index).count b = l.count b := by
  have counted := count_eraseIdx found b
  rwa [beq_eq_false_iff_ne.mpr other, if_neg Bool.false_ne_true, Nat.add_zero] at counted

end EraseIdx

namespace State

section
@[local simp]
def holder (s : State) (fd : Nat) : Option Nat := (s.waiters fd).bind Waiter.handle
end

end State

section Exclusive

variable {fdOf : Nat → Nat}

section
@[local simp]
def Away (fdOf : Nat → Nat) (s : State) (coroutine : Nat) : Prop :=
  s.holder (fdOf coroutine) ≠ some coroutine ∧ s.executor.count (some coroutine) = 0

@[local simp]
def HandleKept (fdOf : Nat → Nat) (s : State) (coroutine : Nat) : Prop :=
  match s.pc coroutine with
  | .suspended op events => events = op.event ∧
      (s.waiters (fdOf coroutine) = some ⟨some coroutine, events⟩ ∧
          s.executor.count (some coroutine) = 0 ∨
        s.holder (fdOf coroutine) ≠ some coroutine ∧ s.executor.count (some coroutine) = 1 ∨
        Away fdOf s coroutine ∧ s.interest (fdOf coroutine) = none)
  | .suspending op events => events = op.event ∧ Away fdOf s coroutine
  | _ => Away fdOf s coroutine
end

structure Inv (fdOf : Nat → Nat) (s : State) : Prop where
  holderFd : ∀ fd coroutine, s.holder fd = some coroutine → fd = fdOf coroutine
  nullEvents : ∀ fd waiter, s.waiters fd = some waiter → waiter.handle = none → waiter.events = 0
  kept : ∀ coroutine, HandleKept fdOf s coroutine

theorem initial_inv : Inv fdOf initial where
  holderFd := by simp [State.holder, initial]
  nullEvents := by simp [initial]
  kept := by simp [HandleKept, Away, State.holder, initial]

theorem HandleKept.congr {s t : State} {coroutine : Nat} (kept : HandleKept fdOf s coroutine)
    (samePc : t.pc coroutine = s.pc coroutine)
    (sameWaiter : t.waiters (fdOf coroutine) = s.waiters (fdOf coroutine))
    (sameCount : t.executor.count (some coroutine) = s.executor.count (some coroutine))
    (sameRegistered : t.interest (fdOf coroutine) = none ↔ s.interest (fdOf coroutine) = none) :
    HandleKept fdOf t coroutine := by
  unfold HandleKept Away State.holder at *
  rw [samePc, sameWaiter, sameCount, sameRegistered]
  exact kept

theorem Inv.setPc {s : State} (inv : Inv fdOf s) {coroutine : Nat} {next : Pc}
    (keptNext : HandleKept fdOf { s with pc := Function.update s.pc coroutine next } coroutine) :
    Inv fdOf { s with pc := Function.update s.pc coroutine next } where
  holderFd := inv.holderFd
  nullEvents := inv.nullEvents
  kept := by
    intro other
    by_cases same : other = coroutine
    · subst same
      exact keptNext
    · exact (inv.kept other).congr (Function.update_of_ne same _ _) rfl rfl Iff.rfl

theorem HandleKept.away {s : State} {coroutine : Nat} (kept : HandleKept fdOf s coroutine)
    (notSuspended : ∀ op events, s.pc coroutine ≠ .suspended op events)
    (notSuspending : ∀ op events, s.pc coroutine ≠ .suspending op events) :
    Away fdOf s coroutine := by
  unfold HandleKept at kept
  split at kept
  · rename_i op events atPc
    exact absurd atPc (notSuspended op events)
  · rename_i op events atPc
    exact absurd atPc (notSuspending op events)
  · exact kept

theorem waiter_getD_eq_default (exclusive : Function.Injective fdOf) {s : State}
    (inv : Inv fdOf s) {coroutine : Nat} (away : s.holder (fdOf coroutine) ≠ some coroutine) :
    (s.waiters (fdOf coroutine)).getD {} = {} := by
  cases found : s.waiters (fdOf coroutine) with
  | none => rfl
  | some waiter =>
      cases owner : waiter.handle with
      | none =>
          have empty := inv.nullEvents _ waiter found owner
          cases waiter
          simp only at owner empty
          simp only [Option.getD_some, owner, empty]
      | some other =>
          have held : s.holder (fdOf coroutine) = some other := by
            simp only [State.holder, found, Option.bind_some, owner]
          have same := exclusive (inv.holderFd _ _ held)
          subst same
          exact absurd held away

theorem holderFd_update {s t : State} (holderFd : ∀ fd coroutine, s.holder fd = some coroutine →
      fd = fdOf coroutine) {fd : Nat} {waiter : Option Waiter}
    (updated : t.waiters = Function.update s.waiters fd waiter)
    (owned : ∀ coroutine, waiter.bind Waiter.handle = some coroutine → fd = fdOf coroutine) :
    ∀ other coroutine, t.holder other = some coroutine → other = fdOf coroutine := by
  intro other coroutine held
  simp only [State.holder, updated] at held
  by_cases atFd : other = fd
  · subst atFd
    rw [Function.update_self] at held
    exact owned coroutine held
  · rw [Function.update_of_ne atFd] at held
    exact holderFd other coroutine held

theorem nullEvents_update {s t : State} (nullEvents : ∀ fd waiter, s.waiters fd = some waiter →
      waiter.handle = none → waiter.events = 0) {fd : Nat} {waiter : Option Waiter}
    (updated : t.waiters = Function.update s.waiters fd waiter)
    (empty : ∀ stored, waiter = some stored → stored.handle = none → stored.events = 0) :
    ∀ other stored, t.waiters other = some stored → stored.handle = none → stored.events = 0 := by
  intro other stored found
  rw [updated] at found
  by_cases atFd : other = fd
  · subst atFd
    rw [Function.update_self] at found
    exact empty stored found
  · rw [Function.update_of_ne atFd] at found
    exact nullEvents other stored found

theorem HandleKept.erase {s t : State} {coroutine : Nat} (kept : HandleKept fdOf s coroutine)
    (samePc : t.pc coroutine = s.pc coroutine) (cleared : t.holder (fdOf coroutine) = none)
    (sameCount : t.executor.count (some coroutine) = s.executor.count (some coroutine))
    (removed : t.interest (fdOf coroutine) = none) : HandleKept fdOf t coroutine := by
  have notHeld : t.holder (fdOf coroutine) ≠ some coroutine := by simp [cleared]
  unfold HandleKept Away at *
  rw [samePc, sameCount, removed]
  split at kept
  · obtain ⟨events, stored | pending | lost⟩ := kept
    · exact ⟨events, Or.inr (Or.inr ⟨⟨notHeld, stored.2⟩, rfl⟩)⟩
    · exact ⟨events, Or.inr (Or.inl ⟨notHeld, pending.2⟩)⟩
    · exact ⟨events, Or.inr (Or.inr ⟨⟨notHeld, lost.1.2⟩, rfl⟩)⟩
  · exact ⟨kept.1, notHeld, kept.2.2⟩
  · exact ⟨notHeld, kept.2⟩

theorem HandleKept.congr_away {s t : State} {coroutine : Nat} (kept : HandleKept fdOf s coroutine)
    (samePc : t.pc coroutine = s.pc coroutine)
    (heldBefore : s.holder (fdOf coroutine) ≠ some coroutine)
    (heldAfter : t.holder (fdOf coroutine) ≠ some coroutine)
    (sameCount : t.executor.count (some coroutine) = s.executor.count (some coroutine))
    (sameRegistered : t.interest (fdOf coroutine) = none ↔ s.interest (fdOf coroutine) = none) :
    HandleKept fdOf t coroutine := by
  unfold HandleKept Away at *
  rw [samePc, sameCount, sameRegistered]
  split at kept
  · obtain ⟨events, stored | pending | lost⟩ := kept
    · exact absurd (by simp [State.holder, stored.1]) heldBefore
    · exact ⟨events, Or.inr (Or.inl ⟨heldAfter, pending.2⟩)⟩
    · exact ⟨events, Or.inr (Or.inr ⟨⟨heldAfter, lost.1.2⟩, lost.2⟩)⟩
  · exact ⟨kept.1, heldAfter, kept.2.2⟩
  · exact ⟨heldAfter, kept.2⟩

theorem Inv.of_same {s t : State} (inv : Inv fdOf s) (samePc : t.pc = s.pc)
    (sameWaiters : t.waiters = s.waiters) (sameExecutor : t.executor = s.executor)
    (sameInterest : t.interest = s.interest) : Inv fdOf t where
  holderFd := by
    intro fd coroutine held
    exact inv.holderFd fd coroutine (by simpa only [State.holder, sameWaiters] using held)
  nullEvents := by
    intro fd waiter found
    exact inv.nullEvents fd waiter (by rw [← sameWaiters]; exact found)
  kept := fun coroutine => (inv.kept coroutine).congr (by rw [samePc]) (by rw [sameWaiters])
    (by rw [sameExecutor]) (by rw [sameInterest])

theorem Inv.moveAway {s : State} (inv : Inv fdOf s) {coroutine : Nat}
    (away : Away fdOf s coroutine) {next : Pc}
    (notSuspended : ∀ op events, next ≠ .suspended op events)
    (eventsOf : ∀ op events, next = .suspending op events → events = op.event) :
    Inv fdOf { s with pc := Function.update s.pc coroutine next } := by
  apply inv.setPc
  unfold HandleKept
  dsimp only
  rw [Function.update_self]
  cases next with
  | suspended op events => exact absurd rfl (notSuspended op events)
  | suspending op events => exact ⟨eventsOf op events rfl, away⟩
  | idle => exact away
  | trying op => exact away
  | gettingEvents op => exact away

theorem State.getEvents_of_default {s : State} {fd : Nat} (empty : (s.waiters fd).getD {} = {}) :
    s.getEvents fd = ({ s with waiters := Function.update s.waiters fd (some {}) }, 0) := by
  simp only [State.getEvents, empty]

theorem inv_getEvents (exclusive : Function.Injective fdOf) {s : State} (inv : Inv fdOf s)
    {coroutine : Nat} {op : IoOp} (getting : s.pc coroutine = .gettingEvents op) :
    Inv fdOf { (s.getEvents (fdOf coroutine)).1 with
      pc := Function.update s.pc coroutine
        (.suspending op ((s.getEvents (fdOf coroutine)).2 ||| op.event)) } := by
  have away := (inv.kept coroutine).away (by simp [getting]) (by simp [getting])
  rw [State.getEvents_of_default (waiter_getD_eq_default exclusive inv away.1), Nat.zero_or]
  dsimp only
  refine ⟨holderFd_update inv.holderFd rfl (by simp), nullEvents_update inv.nullEvents rfl
    (by simp), fun other => ?_⟩
  by_cases same : other = coroutine
  · subst same
    unfold HandleKept
    dsimp only
    rw [Function.update_self]
    exact ⟨rfl, by simp [State.holder], away.2⟩
  · exact (inv.kept other).congr (Function.update_of_ne same _ _)
      (Function.update_of_ne (exclusive.ne same) _ _) rfl Iff.rfl

theorem inv_suspend (exclusive : Function.Injective fdOf) {s : State} (inv : Inv fdOf s)
    {coroutine : Nat} {op : IoOp} {events : Nat}
    (suspending : s.pc coroutine = .suspending op events) :
    Inv fdOf { s.awaitSuspend (fdOf coroutine) events coroutine with
      pc := Function.update s.pc coroutine (.suspended op events) } := by
  have kept := inv.kept coroutine
  unfold HandleKept at kept
  rw [suspending] at kept
  obtain ⟨eventsOf, away⟩ := kept
  refine ⟨holderFd_update inv.holderFd rfl (by simp), nullEvents_update inv.nullEvents rfl
    (by simp), fun other => ?_⟩
  by_cases same : other = coroutine
  · subst same
    unfold HandleKept
    dsimp only [State.awaitSuspend]
    rw [Function.update_self]
    exact ⟨eventsOf, Or.inl ⟨Function.update_self _ _ _, away.2⟩⟩
  · exact (inv.kept other).congr (Function.update_of_ne same _ _)
      (Function.update_of_ne (exclusive.ne same) _ _) rfl Iff.rfl

theorem inv_finishModify {s : State} (inv : Inv fdOf s) (fd events : Nat) :
    Inv fdOf (s.finishModify fd events) := by
  unfold State.finishModify
  split
  · -- the modify succeeds: the fd stays in epoll
    rename_i mask registered
    refine ⟨inv.holderFd, inv.nullEvents, fun coroutine =>
      (inv.kept coroutine).congr rfl rfl rfl ?_⟩
    by_cases atFd : fdOf coroutine = fd
    · rw [atFd]
      simp [registered]
    · simp [Function.update_of_ne atFd]
  · -- the modify fails on an fd out of epoll and erases its waiter
    rename_i removed
    refine ⟨holderFd_update inv.holderFd rfl (by simp), nullEvents_update inv.nullEvents rfl
      (by simp), fun coroutine => ?_⟩
    by_cases atFd : fdOf coroutine = fd
    · exact (inv.kept coroutine).erase rfl (by simp [State.holder, atFd]) rfl
        (by rw [atFd]; exact removed)
    · exact (inv.kept coroutine).congr rfl (Function.update_of_ne atFd _ _) rfl Iff.rfl

theorem inv_removeFd {s : State} (inv : Inv fdOf s) (fd : Nat) : Inv fdOf (s.removeFd fd) := by
  refine ⟨holderFd_update inv.holderFd rfl (by simp), nullEvents_update inv.nullEvents rfl
    (by simp), fun coroutine => ?_⟩
  by_cases atFd : fdOf coroutine = fd
  · exact (inv.kept coroutine).erase rfl (by simp [State.holder, State.removeFd, atFd]) rfl
      (by simp [State.removeFd, atFd])
  · exact (inv.kept coroutine).congr rfl (Function.update_of_ne atFd _ _) rfl
      (by simp [State.removeFd, Function.update_of_ne atFd])

theorem inv_dispatch {s t : State} (inv : Inv fdOf s)
    (dispatched : s.dispatch = some t) : Inv fdOf t := by
  unfold State.dispatch at dispatched
  split at dispatched
  · cases dispatched
  · rename_i fd rest batched
    split at dispatched
    · -- no waiter: the reported fd is skipped
      cases dispatched
      exact inv.of_same rfl rfl rfl rfl
    · rename_i waiter found
      cases dispatched
      refine ⟨holderFd_update inv.holderFd rfl (by simp), nullEvents_update inv.nullEvents rfl
        (by simp), fun coroutine => ?_⟩
      have counted : (s.executor ++ [waiter.handle]).count (some coroutine) =
          s.executor.count (some coroutine) + (if waiter.handle = some coroutine then 1 else 0) := by
        simp [List.count_append, List.count_singleton]
      by_cases taken : waiter.handle = some coroutine
      · -- the waiter is the coroutine's own: it moves to the executor
        have heldBefore : s.holder fd = some coroutine := by simp [State.holder, found, taken]
        have atFd := inv.holderFd fd coroutine heldBefore
        subst atFd
        have kept := inv.kept coroutine
        unfold HandleKept at kept ⊢
        dsimp only
        split
        · rename_i op events atPc
          rw [atPc] at kept
          obtain ⟨eventsOf, stored | pending | lost⟩ := kept
          · refine ⟨eventsOf, Or.inr (Or.inl ⟨by simp [State.holder], ?_⟩)⟩
            rw [counted, if_pos taken, stored.2]
          · exact absurd heldBefore pending.1
          · exact absurd heldBefore lost.1.1
        · rename_i op events atPc
          rw [atPc] at kept
          exact absurd heldBefore kept.2.1
        · rename_i notSuspended notSuspending
          split at kept
          · rename_i op events atPc
            exact absurd atPc (notSuspended op events)
          · rename_i op events atPc
            exact absurd atPc (notSuspending op events)
          · exact absurd heldBefore kept.1
      · -- another waiter, or a null one, leaves: the coroutine keeps where its handle is
        have sameCount : (s.executor ++ [waiter.handle]).count (some coroutine) =
            s.executor.count (some coroutine) := by
          rw [counted, if_neg taken, Nat.add_zero]
        by_cases atFd : fdOf coroutine = fd
        · exact (inv.kept coroutine).congr_away rfl (by simp [State.holder, atFd, found, taken])
            (by simp [State.holder, atFd]) sameCount Iff.rfl
        · exact (inv.kept coroutine).congr rfl (Function.update_of_ne atFd _ _) sameCount Iff.rfl

theorem suspended_of_queued {s : State} (inv : Inv fdOf s) {index coroutine : Nat}
    (found : s.executor[index]? = some (some coroutine)) :
    ∃ op events, s.pc coroutine = .suspended op events := by
  have queued : 0 < s.executor.count (some coroutine) := by
    have counted := count_eraseIdx_self found
    omega
  have kept := inv.kept coroutine
  unfold HandleKept Away at kept
  split at kept
  · rename_i op events atPc
    exact ⟨op, events, atPc⟩
  · exact absurd kept.2.2 (by omega)
  · exact absurd kept.2 (by omega)

theorem inv_resume_null {s : State} (inv : Inv fdOf s) {index : Nat}
    (found : s.executor[index]? = some none) :
    Inv fdOf { s with executor := s.executor.eraseIdx index } := by
  refine ⟨inv.holderFd, inv.nullEvents, fun coroutine =>
    (inv.kept coroutine).congr rfl rfl ?_ Iff.rfl⟩
  exact count_eraseIdx_of_ne found (Option.some_ne_none coroutine).symm

theorem inv_resume {s : State} (inv : Inv fdOf s) {index coroutine : Nat} {op : IoOp}
    {events : Nat} (found : s.executor[index]? = some (some coroutine))
    (suspended : s.pc coroutine = .suspended op events) :
    Inv fdOf { s with
      executor := s.executor.eraseIdx index
      pc := Function.update s.pc coroutine (.trying op) } := by
  have counted := count_eraseIdx_self found
  have kept := inv.kept coroutine
  unfold HandleKept at kept
  rw [suspended] at kept
  obtain ⟨-, stored | pending | lost⟩ := kept
  · omega
  · refine ⟨inv.holderFd, inv.nullEvents, fun other => ?_⟩
    by_cases same : other = coroutine
    · subst same
      unfold HandleKept
      dsimp only
      rw [Function.update_self]
      exact ⟨pending.1, by dsimp only; omega⟩
    · exact (inv.kept other).congr (Function.update_of_ne same _ _) rfl
        (count_eraseIdx_of_ne found (fun equal => same (Option.some.inj equal).symm)) Iff.rfl
  · have := lost.1.2
    omega

theorem step_inv (exclusive : Function.Injective fdOf) {s t : State} (inv : Inv fdOf s)
    {label : Label} (stepped : step fdOf s label = some t) : Inv fdOf t := by
  cases label with
  | start coroutine op =>
      simp only [step] at stepped
      split at stepped
      · rename_i idle
        cases stepped
        exact inv.moveAway ((inv.kept coroutine).away (by simp [idle]) (by simp [idle]))
          (by simp) (by simp)
      · cases stepped
  | tryIo coroutine =>
      simp only [step] at stepped
      split at stepped
      · rename_i op trying
        cases stepped
        apply inv.moveAway ((inv.kept coroutine).away (by simp [trying]) (by simp [trying]))
        · intro op' events
          split
          · simp
          · split <;> simp
        · intro op' events
          split
          · simp
          · split
            · intro atNext
              cases atNext
              rfl
            · simp
      · cases stepped
  | getEvents coroutine =>
      simp only [step] at stepped
      split at stepped
      · rename_i op getting
        cases stepped
        exact inv_getEvents exclusive inv getting
      · cases stepped
  | suspend coroutine =>
      simp only [step] at stepped
      split at stepped
      · rename_i op events suspending
        cases stepped
        exact inv_suspend exclusive inv suspending
      · cases stepped
  | modify index =>
      simp only [step] at stepped
      split at stepped
      · rename_i fd events found
        cases stepped
        apply inv_finishModify
        exact inv.of_same rfl rfl rfl rfl
      · cases stepped
  | wait fds =>
      simp only [step] at stepped
      split at stepped
      · cases stepped
        exact inv.of_same rfl rfl rfl rfl
      · cases stepped
  | dispatch => exact inv_dispatch inv stepped
  | resume index =>
      simp only [step] at stepped
      split at stepped
      · rename_i handle found
        split at stepped
        · rename_i coroutine
          split at stepped
          · rename_i op events suspended
            cases stepped
            exact inv_resume inv found suspended
          · rename_i notSuspended
            obtain ⟨op, events, suspended⟩ := suspended_of_queued inv found
            exact absurd suspended (notSuspended op events)
        · cases stepped
          exact inv_resume_null inv found
      · cases stepped
  | removeFd fd =>
      cases stepped
      exact inv_removeFd inv fd
  | setReady fd events =>
      cases stepped
      exact inv.of_same rfl rfl rfl rfl

/-- When no two coroutines share an fd, every reachable state keeps each coroutine's handle in
one place: a resumption is pending at most once, only for a suspended coroutine and never while
its waiter is still stored; and a suspended coroutine keeps its own `Waiter` until `run()` hands
it to the executor or `remove_fd` takes its fd out of epoll. -/
theorem exclusive_waiters_kept (exclusive : Function.Injective fdOf) {s : State}
    (reached : Run.Reachable (step fdOf) initial s) (coroutine : Nat) :
    s.executor.count (some coroutine) ≤ 1 ∧
      (some coroutine ∈ s.executor → (∃ op events, s.pc coroutine = .suspended op events) ∧
        s.holder (fdOf coroutine) ≠ some coroutine) ∧
      ∀ op events, s.pc coroutine = .suspended op events →
        s.waiters (fdOf coroutine) = some ⟨some coroutine, events⟩ ∨ some coroutine ∈ s.executor ∨
          s.interest (fdOf coroutine) = none := by
  have inv := reached.invariant (Inv fdOf) initial_inv
    (fun _ _ _ holds stepped => step_inv exclusive holds stepped)
  have kept := inv.kept coroutine
  unfold HandleKept Away at kept
  rw [← List.count_pos_iff]
  split at kept
  · rename_i op events atPc
    obtain ⟨-, stored | pending | lost⟩ := kept
    · refine ⟨by omega, by omega, fun op' events' atPc' => Or.inl ?_⟩
      rw [atPc] at atPc'
      cases atPc'
      exact stored.1
    · refine ⟨by omega, fun _ => ⟨⟨op, events, atPc⟩, pending.1⟩, fun _ _ _ => Or.inr (Or.inl (by omega))⟩
    · refine ⟨by omega, by omega, fun _ _ _ => Or.inr (Or.inr lost.2)⟩
  · rename_i op events atPc
    refine ⟨by omega, by omega, fun op' events' atPc' => ?_⟩
    rw [atPc] at atPc'
    cases atPc'
  · rename_i notSuspended notSuspending
    exact ⟨by omega, by omega, fun op events atPc => absurd atPc (notSuspended op events)⟩

theorem exclusive_waiters_kept_reader :
    Function.Injective (fun coroutine : Nat => coroutine) ∧
      ∃ s, Run.exec (step fun coroutine => coroutine) initial
          [.start 0 .read, .tryIo 0, .getEvents 0, .suspend 0] = some s ∧
        s.pc 0 = .suspended .read epollIn ∧
        (s.executor.count (some 0) ≤ 1 ∧
          (some 0 ∈ s.executor → (∃ op events, s.pc 0 = .suspended op events) ∧
            s.holder 0 ≠ some 0) ∧
          ∀ op events, s.pc 0 = .suspended op events →
            s.waiters 0 = some ⟨some 0, events⟩ ∨ some 0 ∈ s.executor ∨ s.interest 0 = none) := by
  have exclusive : Function.Injective (fun coroutine : Nat => coroutine) := fun _ _ same => same
  refine ⟨exclusive, _, rfl, rfl, ?_⟩
  exact exclusive_waiters_kept exclusive
    (Run.reachable_of_exec _ [.start 0 .read, .tryIo 0, .getEvents 0, .suspend 0] _ _ rfl) 0

/-- Where `ev` stays in the interest set is not kept, even with one coroutine on the fd: the
`ev_->modify` of a read's `await_suspend` can be delayed past the whole read and the next write's
suspension, and then sets the interest back to `EPOLLIN` under a writer waiting for
`EPOLLOUT`. -/
theorem stale_modify_drops_interest :
    ∃ final, Run.exec (step fun coroutine => coroutine) initial
        [.start 0 .read, .tryIo 0, .getEvents 0, .suspend 0, .setReady 0 epollIn, .wait [0],
          .dispatch, .resume 0, .tryIo 0, .setReady 0 0, .start 0 .write, .tryIo 0,
          .getEvents 0, .suspend 0, .modify 1, .modify 0] = some final ∧
      final.pc 0 = .suspended .write epollOut ∧ final.modifies = [] ∧
      final.interest 0 = some epollIn :=
  ⟨_, rfl, rfl, rfl, rfl⟩

end Exclusive

end IOContext

end HighSpeed
