import Mathlib.Logic.Function.Basic
import HighSpeed.Lib.Run

/-!
The file descriptors of `net/Socket.hpp`: which object holds each descriptor that `Acceptor` and
`Socket` open, and what their constructors, moves, `close` and destructors do with it.
-/

namespace HighSpeed

namespace Sockets

structure Socket where
  sockfd : Int
  ctx : Option Nat
deriving DecidableEq

structure Acceptor where
  listenfd : Int
  ctx : Nat
deriving DecidableEq

structure World where
  isOpen : Int → Bool
  polled : Nat → Int → Bool
  sockets : Nat → Option Socket
  acceptors : Nat → Option Acceptor
  badCloses : Nat
  thrown : List String
  terminated : Bool

def initial (foreign : Int → Bool) : World :=
  ⟨foreign, fun _ _ => false, fun _ => none, fun _ => none, 0, [], false⟩

abbrev Call := EStateM String World

namespace World

def withSocket (w : World) (obj : Nat) (socket : Option Socket) : World :=
  { w with sockets := Function.update w.sockets obj socket }

def withAcceptor (w : World) (obj : Nat) (acceptor : Option Acceptor) : World :=
  { w with acceptors := Function.update w.acceptors obj acceptor }

def opened (w : World) (fd : Int) : World :=
  { w with isOpen := Function.update w.isOpen fd true }

def closed (w : World) (fd : Int) : World :=
  { w with
    isOpen := Function.update w.isOpen fd false
    polled := fun ctx => Function.update (w.polled ctx) fd false }

def withPolled (w : World) (ctx : Nat) (fd : Int) (member : Bool) : World :=
  { w with polled := Function.update w.polled ctx (Function.update (w.polled ctx) fd member) }

def Fresh (w : World) (fd : Int) : Prop := fd < 0 ∨ w.isOpen fd = false

instance (w : World) (fd : Int) : Decidable (w.Fresh fd) :=
  inferInstanceAs (Decidable (_ ∨ _))

end World

/-- `::socket` or `::accept4` returning the descriptor `fd`. -/
def openFd (fd : Int) : Call Unit :=
  modify fun w => w.opened fd

/-- `::close(fd)`, whose result the code ignores. -/
def sysClose (fd : Int) : Call Unit :=
  modify fun w => if w.isOpen fd then w.closed fd else { w with badCloses := w.badCloses + 1 }

/-- `IOContext::add_fd`, which is `Epoll::add`: `EPOLL_CTL_ADD` fails on a descriptor that is not
open or already in the list. -/
def addFd (ctx : Nat) (fd : Int) : Call Unit := do
  let w ← get
  if w.isOpen fd && !w.polled ctx fd then set (w.withPolled ctx fd true)
  else throw "epoll_ctl add failed"

/-- `IOContext::remove_fd`, whose `ev_->remove` is `EPOLL_CTL_DEL`: it fails on a descriptor that
is not open or not in the list. The `waiters_` entry it erases is `IOContext.State.removeFd`. -/
def removeFd (ctx : Nat) (fd : Int) : Call Unit := do
  let w ← get
  if w.isOpen fd && w.polled ctx fd then set (w.withPolled ctx fd false)
  else throw "epoll_ctl remove failed"

def setSocket (obj : Nat) (socket : Option Socket) : Call Unit :=
  modify fun w => w.withSocket obj socket

def setAcceptor (obj : Nat) (acceptor : Option Acceptor) : Call Unit :=
  modify fun w => w.withAcceptor obj acceptor

namespace Socket

/-- `Socket() = default`. -/
def empty : Socket := ⟨-1, none⟩

/-- `Socket(int fd, IOContext* ctx)`. -/
def create (obj : Nat) (fd : Int) (ctx : Nat) : Call Unit := do
  if 0 ≤ fd then addFd ctx fd
  setSocket obj (some ⟨fd, some ctx⟩)

def close (obj : Nat) : Call Unit := do
  match (← get).sockets obj with
  | none => pure ()
  | some s =>
      if 0 ≤ s.sockfd then
        match s.ctx with
        | some ctx => removeFd ctx s.sockfd
        | none => pure ()
        sysClose s.sockfd
        setSocket obj (some { s with sockfd := -1 })

/-- `Socket(Socket&& o) noexcept`. -/
def moveConstruct (dst src : Nat) : Call Unit := do
  match (← get).sockets src with
  | none => pure ()
  | some o =>
      setSocket dst (some o)
      setSocket src (some empty)

def moveAssign (dst src : Nat) : Call Unit := do
  if dst ≠ src then
    close dst
    match (← get).sockets src with
    | none => pure ()
    | some o =>
        setSocket dst (some o)
        setSocket src (some empty)

def destroy (obj : Nat) : Call Unit := do
  close obj
  setSocket obj none

end Socket

namespace Acceptor

/-- `Acceptor(IOContext* ctx, EndPoint ep)`: `fd` is what `::socket` returns, `-1` when it fails,
and `bound` and `listening` are whether `bind` and `listen` succeed. `setsockopt` and `fcntl`
change nothing that is modelled. -/
def create (obj : Nat) (ctx : Option Nat) (fd : Int) (bound listening : Bool) : Call Unit := do
  match ctx with
  | none => throw "Acceptor needs IOContext"
  | some ctx =>
      if fd < 0 then throw "socket failed"
      openFd fd
      if !bound then throw "bind failed"
      if !listening then throw "listen failed"
      addFd ctx fd
      setAcceptor obj (some ⟨fd, ctx⟩)

def close (obj : Nat) : Call Unit := do
  match (← get).acceptors obj with
  | none => pure ()
  | some a =>
      if 0 ≤ a.listenfd then
        removeFd a.ctx a.listenfd
        sysClose a.listenfd
        setAcceptor obj (some { a with listenfd := -1 })

def destroy (obj : Nat) : Call Unit := do
  close obj
  setAcceptor obj none

def copy (dst src : Nat) : Call Unit := do
  setAcceptor dst ((← get).acceptors src)

/-- One pass of the loop of `async_accept` that does not suspend: `::accept4` returns `cfd`, or
`-1` for an error other than `EAGAIN`, and the loop returns `Socket{cfd, ctx_}` or throws. An
`Acceptor` that is closed passes `-1`, and `accept4` fails on it. The moves of the returned
`Socket` through the promise leave an empty socket behind each time; `obj` is where it ends. -/
def asyncAccept (listener obj : Nat) (cfd : Int) : Call Unit := do
  match (← get).acceptors listener with
  | none => pure ()
  | some a =>
      if a.listenfd < 0 ∨ cfd < 0 then throw "accept failed"
      openFd cfd
      Socket.create obj cfd a.ctx

end Acceptor

inductive Label where
  | createAcceptor (obj : Nat) (ctx : Option Nat) (fd : Int) (bound listening : Bool)
  | copyAcceptor (dst src : Nat)
  | closeAcceptor (obj : Nat)
  | destroyAcceptor (obj : Nat)
  | accept (listener obj : Nat) (fd : Int)
  | createEmpty (obj : Nat)
  | moveConstruct (dst src : Nat)
  | moveAssign (dst src : Nat)
  | close (obj : Nat)
  | destroy (obj : Nat)

def caught : EStateM.Result String World Unit → World
  | .ok _ w => w
  | .error message w => { w with thrown := w.thrown ++ [message] }

def fatal : EStateM.Result String World Unit → World
  | .ok _ w => w
  | .error _ w => { w with terminated := true }

section
@[local simp]
def step (w : World) : Label → Option World
  | .createAcceptor obj ctx fd bound listening =>
      if w.terminated = false ∧ w.acceptors obj = none ∧ w.Fresh fd then
        some (caught (Acceptor.create obj ctx fd bound listening w))
      else none
  | .copyAcceptor dst src =>
      if w.terminated = false ∧ w.acceptors dst = none ∧ (w.acceptors src).isSome then
        some (caught (Acceptor.copy dst src w))
      else none
  | .closeAcceptor obj =>
      if w.terminated = false ∧ (w.acceptors obj).isSome then
        some (caught (Acceptor.close obj w))
      else none
  | .destroyAcceptor obj =>
      if w.terminated = false ∧ (w.acceptors obj).isSome then
        some (fatal (Acceptor.destroy obj w))
      else none
  | .accept listener obj fd =>
      if w.terminated = false ∧ (w.acceptors listener).isSome ∧ w.sockets obj = none ∧
          w.Fresh fd then
        some (caught (Acceptor.asyncAccept listener obj fd w))
      else none
  | .createEmpty obj =>
      if w.terminated = false ∧ w.sockets obj = none then
        some (caught (setSocket obj (some Socket.empty) w))
      else none
  | .moveConstruct dst src =>
      if w.terminated = false ∧ w.sockets dst = none ∧ (w.sockets src).isSome then
        some (caught (Socket.moveConstruct dst src w))
      else none
  | .moveAssign dst src =>
      if w.terminated = false ∧ (w.sockets dst).isSome ∧ (w.sockets src).isSome then
        some (fatal (Socket.moveAssign dst src w))
      else none
  | .close obj =>
      if w.terminated = false ∧ (w.sockets obj).isSome then
        some (caught (Socket.close obj w))
      else none
  | .destroy obj =>
      if w.terminated = false ∧ (w.sockets obj).isSome then
        some (fatal (Socket.destroy obj w))
      else none
end

/-- The labels that fail after `::socket` returned `fd`: `bind` or `listen` throws. -/
def Label.Leaks : Label → Int → Prop
  | .createAcceptor _ (some _) fd bound listening, fd' =>
      fd' = fd ∧ 0 ≤ fd ∧ (bound = false ∨ listening = false)
  | _, _ => False

def Label.copiesAcceptor : Label → Bool
  | .copyAcceptor _ _ => true
  | _ => false

/-! ## Who holds a descriptor -/

inductive Owner where
  | socket (obj : Nat)
  | acceptor (obj : Nat)
deriving DecidableEq

namespace World

def Holds (w : World) : Owner → Int → Prop
  | .socket obj, fd => ∃ s, w.sockets obj = some s ∧ s.sockfd = fd
  | .acceptor obj, fd => ∃ a, w.acceptors obj = some a ∧ a.listenfd = fd

def ContextOf (w : World) : Owner → Nat → Prop
  | .socket obj, ctx => ∃ s, w.sockets obj = some s ∧ s.ctx = some ctx
  | .acceptor obj, ctx => ∃ a, w.acceptors obj = some a ∧ a.ctx = ctx

theorem holds_functional {w : World} {owner : Owner} {fd fd' : Int} (holds : w.Holds owner fd)
    (holds' : w.Holds owner fd') : fd = fd' := by
  cases owner with
  | socket obj =>
      obtain ⟨s, found, rfl⟩ := holds
      obtain ⟨s', found', rfl⟩ := holds'
      rw [found] at found'
      cases found'
      rfl
  | acceptor obj =>
      obtain ⟨a, found, rfl⟩ := holds
      obtain ⟨a', found', rfl⟩ := holds'
      rw [found] at found'
      cases found'
      rfl

theorem ne_of_inert {w : World} {owner other : Owner} {fd : Int}
    (inert : ∀ fd', w.Holds owner fd' → fd' < 0) (nonneg : 0 ≤ fd) (holds : w.Holds other fd) :
    other ≠ owner := by
  rintro rfl
  have := inert fd holds
  omega

def Frame (w w' : World) (owner : Owner) : Prop :=
  ∀ other, other ≠ owner → w'.Holds other = w.Holds other ∧ w'.ContextOf other = w.ContextOf other

def SameRecords (w w' : World) : Prop :=
  w'.terminated = w.terminated ∧ w'.badCloses = w.badCloses ∧ w'.thrown = w.thrown

end World

def EnvironmentFailure (message : String) : Prop :=
  message = "Acceptor needs IOContext" ∨ message = "socket failed" ∨ message = "bind failed" ∨
    message = "listen failed" ∨ message = "accept failed"

structure Owned (outside : Int → Prop) (w : World) : Prop where
  running : w.terminated = false
  closesOpen : w.badCloses = 0
  thrownByEnvironment : ∀ message ∈ w.thrown, EnvironmentFailure message
  outsideOpen : ∀ fd, outside fd → w.isOpen fd = true
  outsideUnheld : ∀ owner fd, outside fd → 0 ≤ fd → ¬ w.Holds owner fd
  openHeld : ∀ fd, 0 ≤ fd → w.isOpen fd = true → outside fd ∨ ∃ owner, w.Holds owner fd
  polledOpen : ∀ ctx fd, w.polled ctx fd = true → w.isOpen fd = true
  heldPolled : ∀ owner fd, 0 ≤ fd → w.Holds owner fd →
    ∃ ctx, w.ContextOf owner ctx ∧ w.polled ctx fd = true
  apart : ∀ owner owner' fd, 0 ≤ fd → w.Holds owner fd → w.Holds owner' fd → owner = owner'

section Owned

variable {outside : Int → Prop} {w w' : World}

theorem Owned.open_of_holds (owned : Owned outside w) {owner : Owner} {fd : Int} (nonneg : 0 ≤ fd)
    (holds : w.Holds owner fd) : w.isOpen fd = true := by
  obtain ⟨ctx, -, polled⟩ := owned.heldPolled owner fd nonneg holds
  exact owned.polledOpen ctx fd polled

theorem Owned.unheld_of_closed (owned : Owned outside w) {owner : Owner} {fd : Int}
    (nonneg : 0 ≤ fd) (closed : w.isOpen fd = false) : ¬ w.Holds owner fd := by
  intro holds
  rw [owned.open_of_holds nonneg holds] at closed
  cases closed

theorem Owned.unpolled_of_closed (owned : Owned outside w) {ctx : Nat} {fd : Int}
    (closed : w.isOpen fd = false) : w.polled ctx fd = false := by
  cases polled : w.polled ctx fd
  · rfl
  · rw [owned.polledOpen ctx fd polled] at closed
    cases closed

structure Released (w w' : World) (owner : Owner) (fd : Int) : Prop where
  records : w.SameRecords w'
  isOpen : w'.isOpen = Function.update w.isOpen fd false
  polled : ∀ ctx, w'.polled ctx = Function.update (w.polled ctx) fd false
  frame : w.Frame w' owner
  inert : ∀ fd', w'.Holds owner fd' → fd' < 0

theorem Owned.released (owned : Owned outside w) {owner : Owner} {fd : Int} (nonneg : 0 ≤ fd)
    (holds : w.Holds owner fd) (released : Released w w' owner fd) : Owned outside w' := by
  obtain ⟨⟨terminated, badCloses, thrown⟩, isOpen, polled, frame, inert⟩ := released
  have otherFd : ∀ other fd', 0 ≤ fd' → other ≠ owner → w.Holds other fd' → fd' ≠ fd :=
    fun other fd' nonneg' different holds' same =>
      different (owned.apart other owner fd nonneg (same ▸ holds') holds)
  have outsideFd : ∀ fd', outside fd' → 0 ≤ fd' → fd' ≠ fd :=
    fun fd' outside' nonneg' same => owned.outsideUnheld owner fd' outside' nonneg' (same ▸ holds)
  refine ⟨terminated ▸ owned.running, badCloses ▸ owned.closesOpen,
    thrown ▸ owned.thrownByEnvironment, ?outsideOpen, ?outsideUnheld, ?openHeld, ?polledOpen,
    ?heldPolled, ?apart⟩
  case outsideOpen =>
    intro fd' outside'
    by_cases nonneg' : 0 ≤ fd'
    · rw [isOpen, Function.update_of_ne (outsideFd fd' outside' nonneg')]
      exact owned.outsideOpen fd' outside'
    · rw [isOpen, Function.update_of_ne (by omega)]
      exact owned.outsideOpen fd' outside'
  case outsideUnheld =>
    intro other fd' outside' nonneg' holds'
    have different := World.ne_of_inert inert nonneg' holds'
    rw [(frame other different).1] at holds'
    exact owned.outsideUnheld other fd' outside' nonneg' holds'
  case openHeld =>
    intro fd' nonneg' open'
    have different : fd' ≠ fd := by
      rintro rfl
      rw [isOpen, Function.update_self] at open'
      cases open'
    rw [isOpen, Function.update_of_ne different] at open'
    rcases owned.openHeld fd' nonneg' open' with outside' | ⟨other, holds'⟩
    · exact .inl outside'
    · have otherNe : other ≠ owner := fun same =>
        different (World.holds_functional (same ▸ holds') holds)
      exact .inr ⟨other, (frame other otherNe).1 ▸ holds'⟩
  case polledOpen =>
    intro ctx fd' polled'
    have different : fd' ≠ fd := by
      rintro rfl
      rw [polled, Function.update_self] at polled'
      cases polled'
    rw [polled, Function.update_of_ne different] at polled'
    rw [isOpen, Function.update_of_ne different]
    exact owned.polledOpen ctx fd' polled'
  case heldPolled =>
    intro other fd' nonneg' holds'
    have different := World.ne_of_inert inert nonneg' holds'
    rw [(frame other different).1] at holds'
    obtain ⟨ctx, context, polled'⟩ := owned.heldPolled other fd' nonneg' holds'
    refine ⟨ctx, (frame other different).2 ▸ context, ?_⟩
    rw [polled, Function.update_of_ne (otherFd other fd' nonneg' different holds')]
    exact polled'
  case apart =>
    intro first second fd' nonneg' holdsFirst holdsSecond
    have firstNe := World.ne_of_inert inert nonneg' holdsFirst
    have secondNe := World.ne_of_inert inert nonneg' holdsSecond
    rw [(frame first firstNe).1] at holdsFirst
    rw [(frame second secondNe).1] at holdsSecond
    exact owned.apart first second fd' nonneg' holdsFirst holdsSecond

structure Acquired (w w' : World) (owner : Owner) (ctx : Nat) (fd : Int) : Prop where
  records : w.SameRecords w'
  isOpen : w'.isOpen = Function.update w.isOpen fd true
  polled : w'.polled = Function.update w.polled ctx (Function.update (w.polled ctx) fd true)
  frame : w.Frame w' owner
  holds : ∀ fd', w'.Holds owner fd' ↔ fd' = fd
  context : w'.ContextOf owner ctx

theorem Owned.acquired (owned : Owned outside w) {owner : Owner} {ctx : Nat} {fd : Int}
    (closed : w.isOpen fd = false) (free : ∀ fd', w.Holds owner fd' → fd' < 0)
    (acquired : Acquired w w' owner ctx fd) : Owned outside w' := by
  obtain ⟨⟨terminated, badCloses, thrown⟩, isOpen, polled, frame, holds, context⟩ := acquired
  have stillOpen : ∀ fd', w.isOpen fd' = true → w'.isOpen fd' = true := fun fd' open' => by
    rw [isOpen]
    by_cases same : fd' = fd
    · rw [same, Function.update_self]
    · rw [Function.update_of_ne same]
      exact open'
  have stillPolled : ∀ ctx' fd', w.polled ctx' fd' = true → w'.polled ctx' fd' = true :=
    fun ctx' fd' polled' => by
      rw [polled]
      by_cases sameCtx : ctx' = ctx
      · subst sameCtx
        rw [Function.update_self]
        by_cases same : fd' = fd
        · rw [same, Function.update_self]
        · rw [Function.update_of_ne same]
          exact polled'
      · rw [Function.update_of_ne sameCtx]
        exact polled'
  refine ⟨terminated ▸ owned.running, badCloses ▸ owned.closesOpen,
    thrown ▸ owned.thrownByEnvironment,
    fun fd' outside' => stillOpen fd' (owned.outsideOpen fd' outside'),
    ?outsideUnheld, ?openHeld, ?polledOpen, ?heldPolled, ?apart⟩
  case outsideUnheld =>
    intro other fd' outside' nonneg' holds'
    by_cases same : other = owner
    · subst same
      rw [(holds fd').1 holds'] at outside'
      rw [owned.outsideOpen fd outside'] at closed
      cases closed
    · rw [(frame other same).1] at holds'
      exact owned.outsideUnheld other fd' outside' nonneg' holds'
  case openHeld =>
    intro fd' nonneg' open'
    by_cases same : fd' = fd
    · exact .inr ⟨owner, (holds fd').2 same⟩
    · rw [isOpen, Function.update_of_ne same] at open'
      rcases owned.openHeld fd' nonneg' open' with outside' | ⟨other, holds'⟩
      · exact .inl outside'
      · have different := World.ne_of_inert free nonneg' holds'
        exact .inr ⟨other, (frame other different).1 ▸ holds'⟩
  case polledOpen =>
    intro ctx' fd' polled'
    by_cases same : fd' = fd
    · rw [isOpen, same, Function.update_self]
    · rw [polled] at polled'
      have unchanged :
          Function.update w.polled ctx (Function.update (w.polled ctx) fd true) ctx' fd' =
          w.polled ctx' fd' := by
        by_cases sameCtx : ctx' = ctx
        · subst sameCtx
          rw [Function.update_self, Function.update_of_ne same]
        · rw [Function.update_of_ne sameCtx]
      rw [unchanged] at polled'
      exact stillOpen fd' (owned.polledOpen ctx' fd' polled')
  case heldPolled =>
    intro other fd' nonneg' holds'
    by_cases same : other = owner
    · subst same
      rw [(holds fd').1 holds']
      refine ⟨ctx, context, ?_⟩
      rw [polled, Function.update_self, Function.update_self]
    · rw [(frame other same).1] at holds'
      obtain ⟨ctx', context', polled'⟩ := owned.heldPolled other fd' nonneg' holds'
      exact ⟨ctx', (frame other same).2 ▸ context', stillPolled ctx' fd' polled'⟩
  case apart =>
    intro first second fd' nonneg' holdsFirst holdsSecond
    have notFd : ∀ other, other ≠ owner → w'.Holds other fd' → fd' ≠ fd := fun other ne h same => by
      rw [(frame other ne).1] at h
      rw [← same, owned.open_of_holds nonneg' h] at closed
      cases closed
    by_cases firstSame : first = owner <;> by_cases secondSame : second = owner
    · rw [firstSame, secondSame]
    · exact absurd ((holds fd').1 (firstSame ▸ holdsFirst)) (notFd second secondSame holdsSecond)
    · exact absurd ((holds fd').1 (secondSame ▸ holdsSecond)) (notFd first firstSame holdsFirst)
    · rw [(frame first firstSame).1] at holdsFirst
      rw [(frame second secondSame).1] at holdsSecond
      exact owned.apart first second fd' nonneg' holdsFirst holdsSecond

structure Retouched (w w' : World) (owner : Owner) : Prop where
  records : w.SameRecords w'
  isOpen : w'.isOpen = w.isOpen
  polled : w'.polled = w.polled
  frame : w.Frame w' owner
  inert : ∀ fd', w'.Holds owner fd' → fd' < 0

theorem Owned.retouched (owned : Owned outside w) {owner : Owner}
    (inertBefore : ∀ fd', w.Holds owner fd' → fd' < 0) (retouched : Retouched w w' owner) :
    Owned outside w' := by
  obtain ⟨⟨terminated, badCloses, thrown⟩, isOpen, polled, frame, inert⟩ := retouched
  have back : ∀ other fd', 0 ≤ fd' → w'.Holds other fd' → w.Holds other fd' ∧ other ≠ owner :=
    fun other fd' nonneg' holds' => by
      have different := World.ne_of_inert inert nonneg' holds'
      exact ⟨(frame other different).1 ▸ holds', different⟩
  refine ⟨terminated ▸ owned.running, badCloses ▸ owned.closesOpen,
    thrown ▸ owned.thrownByEnvironment, isOpen ▸ owned.outsideOpen,
    fun other fd' outside' nonneg' holds' =>
      owned.outsideUnheld other fd' outside' nonneg' (back other fd' nonneg' holds').1,
    ?openHeld, isOpen ▸ polled ▸ owned.polledOpen, ?heldPolled,
    fun first second fd' nonneg' holdsFirst holdsSecond =>
      owned.apart first second fd' nonneg' (back first fd' nonneg' holdsFirst).1
        (back second fd' nonneg' holdsSecond).1⟩
  case openHeld =>
    intro fd' nonneg' open'
    rw [isOpen] at open'
    rcases owned.openHeld fd' nonneg' open' with outside' | ⟨other, holds'⟩
    · exact .inl outside'
    · have different := World.ne_of_inert inertBefore nonneg' holds'
      exact .inr ⟨other, (frame other different).1 ▸ holds'⟩
  case heldPolled =>
    intro other fd' nonneg' holds'
    obtain ⟨holdsBefore, different⟩ := back other fd' nonneg' holds'
    obtain ⟨ctx, context, polled'⟩ := owned.heldPolled other fd' nonneg' holdsBefore
    exact ⟨ctx, (frame other different).2 ▸ context, polled ▸ polled'⟩

structure Moved (w w' : World) (src dst : Owner) : Prop where
  records : w.SameRecords w'
  isOpen : w'.isOpen = w.isOpen
  polled : w'.polled = w.polled
  frame : ∀ other, other ≠ src → other ≠ dst →
    w'.Holds other = w.Holds other ∧ w'.ContextOf other = w.ContextOf other
  moved : w'.Holds dst = w.Holds src ∧ w'.ContextOf dst = w.ContextOf src
  inert : ∀ fd', w'.Holds src fd' → fd' < 0

theorem Owned.moved (owned : Owned outside w) {src dst : Owner}
    (inertBefore : ∀ fd', w.Holds dst fd' → fd' < 0) (moved : Moved w w' src dst) :
    Owned outside w' := by
  obtain ⟨⟨terminated, badCloses, thrown⟩, isOpen, polled, frame, ⟨holdsDst, contextDst⟩,
    inert⟩ := moved
  have back : ∀ other fd', 0 ≤ fd' → w'.Holds other fd' →
      w.Holds (if other = dst then src else other) fd' := fun other fd' nonneg' holds' => by
    by_cases isDst : other = dst
    · rw [if_pos isDst, ← holdsDst, ← isDst]
      exact holds'
    · have isNotSrc := World.ne_of_inert inert nonneg' holds'
      rw [if_neg isDst, ← (frame other isNotSrc isDst).1]
      exact holds'
  refine ⟨terminated ▸ owned.running, badCloses ▸ owned.closesOpen,
    thrown ▸ owned.thrownByEnvironment, isOpen ▸ owned.outsideOpen,
    fun other fd' outside' nonneg' holds' =>
      owned.outsideUnheld _ fd' outside' nonneg' (back other fd' nonneg' holds'),
    ?openHeld, isOpen ▸ polled ▸ owned.polledOpen, ?heldPolled, ?apart⟩
  case openHeld =>
    intro fd' nonneg' open'
    rw [isOpen] at open'
    rcases owned.openHeld fd' nonneg' open' with outside' | ⟨other, holds'⟩
    · exact .inl outside'
    · refine .inr ⟨if other = src then dst else other, ?_⟩
      by_cases isSrc : other = src
      · rw [if_pos isSrc, holdsDst, ← isSrc]
        exact holds'
      · have isNotDst := World.ne_of_inert inertBefore nonneg' holds'
        rw [if_neg isSrc, (frame other isSrc isNotDst).1]
        exact holds'
  case heldPolled =>
    intro other fd' nonneg' holds'
    obtain ⟨ctx, context, polled'⟩ := owned.heldPolled _ fd' nonneg' (back other fd' nonneg' holds')
    refine ⟨ctx, ?_, polled ▸ polled'⟩
    by_cases isDst : other = dst
    · rw [isDst, contextDst]
      rw [if_pos isDst] at context
      exact context
    · have isNotSrc := World.ne_of_inert inert nonneg' holds'
      rw [if_neg isDst] at context
      rw [(frame other isNotSrc isDst).2]
      exact context
  case apart =>
    intro first second fd' nonneg' holdsFirst holdsSecond
    have same := owned.apart _ _ fd' nonneg' (back first fd' nonneg' holdsFirst)
      (back second fd' nonneg' holdsSecond)
    have firstNotSrc := World.ne_of_inert inert nonneg' holdsFirst
    have secondNotSrc := World.ne_of_inert inert nonneg' holdsSecond
    by_cases firstDst : first = dst <;> by_cases secondDst : second = dst
    · rw [firstDst, secondDst]
    · rw [if_pos firstDst, if_neg secondDst] at same
      exact absurd same.symm secondNotSrc
    · rw [if_neg firstDst, if_pos secondDst] at same
      exact absurd same firstNotSrc
    · rw [if_neg firstDst, if_neg secondDst] at same
      exact same

theorem Owned.thrown (owned : Owned outside w) {message : String}
    (failure : EnvironmentFailure message) :
    Owned outside { w with thrown := w.thrown ++ [message] } := by
  refine { owned with thrownByEnvironment := ?_ }
  intro message' thrown'
  rcases List.mem_append.mp thrown' with before | now
  · exact owned.thrownByEnvironment message' before
  · rw [List.mem_singleton.mp now]
    exact failure

theorem Owned.congr (owned : Owned outside w) {outside' : Int → Prop}
    (same : ∀ fd, outside' fd ↔ outside fd) : Owned outside' w := by
  have eq : outside' = outside := funext fun fd => propext (same fd)
  exact eq ▸ owned

theorem Owned.leaked (owned : Owned outside w) {fd : Int} {message : String} (nonneg : 0 ≤ fd)
    (closed : w.isOpen fd = false) (failure : EnvironmentFailure message) :
    Owned (fun fd' => outside fd' ∨ fd' = fd)
      { w.opened fd with thrown := w.thrown ++ [message] } := by
  have unheld : ∀ owner, ¬ w.Holds owner fd := fun owner => owned.unheld_of_closed nonneg closed
  have stillOpen : ∀ fd', w.isOpen fd' = true → Function.update w.isOpen fd true fd' = true :=
    fun fd' open' => by
      by_cases same : fd' = fd
      · rw [same, Function.update_self]
      · rw [Function.update_of_ne same]
        exact open'
  refine ⟨owned.running, owned.closesOpen, (owned.thrown failure).thrownByEnvironment, ?_, ?_,
    ?_, ?_, owned.heldPolled, owned.apart⟩
  · rintro fd' (outside' | rfl)
    · exact stillOpen fd' (owned.outsideOpen fd' outside')
    · exact Function.update_self ..
  · rintro owner fd' (outside' | rfl) nonneg' holds'
    · exact owned.outsideUnheld owner fd' outside' nonneg' holds'
    · exact unheld owner holds'
  · intro fd' nonneg' open'
    by_cases same : fd' = fd
    · exact .inl (.inr same)
    · change Function.update w.isOpen fd true fd' = true at open'
      rw [Function.update_of_ne same] at open'
      rcases owned.openHeld fd' nonneg' open' with outside' | held
      · exact .inl (.inl outside')
      · exact .inr held
  · intro ctx fd' polled'
    exact stillOpen fd' (owned.polledOpen ctx fd' polled')

end Owned

/-! ## The edits of the calls -/

theorem Socket.cleared_inert (s : Socket) : ∀ s' ∈ some { s with sockfd := -1 }, s'.sockfd < 0 := by
  intro s' stored
  cases stored
  show (-1 : Int) < 0
  decide

theorem Acceptor.cleared_inert (a : Acceptor) :
    ∀ a' ∈ some { a with listenfd := -1 }, a'.listenfd < 0 := by
  intro a' stored
  cases stored
  show (-1 : Int) < 0
  decide

namespace World

variable (w : World)

@[simp] theorem holds_opened (fd : Int) : (w.opened fd).Holds = w.Holds := by
  funext owner; cases owner <;> rfl

@[simp] theorem holds_closed (fd : Int) : (w.closed fd).Holds = w.Holds := by
  funext owner; cases owner <;> rfl

@[simp] theorem holds_withPolled (ctx : Nat) (fd : Int) (member : Bool) :
    (w.withPolled ctx fd member).Holds = w.Holds := by
  funext owner; cases owner <;> rfl

@[simp] theorem contextOf_opened (fd : Int) : (w.opened fd).ContextOf = w.ContextOf := by
  funext owner; cases owner <;> rfl

@[simp] theorem contextOf_closed (fd : Int) : (w.closed fd).ContextOf = w.ContextOf := by
  funext owner; cases owner <;> rfl

@[simp] theorem contextOf_withPolled (ctx : Nat) (fd : Int) (member : Bool) :
    (w.withPolled ctx fd member).ContextOf = w.ContextOf := by
  funext owner; cases owner <;> rfl

theorem holds_withSocket_self (obj : Nat) (t : Option Socket) (fd : Int) :
    (w.withSocket obj t).Holds (.socket obj) fd ↔ ∃ s, t = some s ∧ s.sockfd = fd := by
  simp [Holds, withSocket]

theorem holds_withAcceptor_self (obj : Nat) (t : Option Acceptor) (fd : Int) :
    (w.withAcceptor obj t).Holds (.acceptor obj) fd ↔ ∃ a, t = some a ∧ a.listenfd = fd := by
  simp [Holds, withAcceptor]

theorem frame_withSocket {w₁ : World} (holds : w₁.Holds = w.Holds)
    (context : w₁.ContextOf = w.ContextOf) (obj : Nat) (t : Option Socket) :
    w.Frame (w₁.withSocket obj t) (.socket obj) := by
  intro other different
  rw [← holds, ← context]
  cases other with
  | socket other =>
      have apart : other ≠ obj := fun same => different (same ▸ rfl)
      constructor <;> funext _ <;> simp [Holds, ContextOf, withSocket, Function.update_of_ne apart]
  | acceptor other => exact ⟨rfl, rfl⟩

theorem frame_withAcceptor {w₁ : World} (holds : w₁.Holds = w.Holds)
    (context : w₁.ContextOf = w.ContextOf) (obj : Nat) (t : Option Acceptor) :
    w.Frame (w₁.withAcceptor obj t) (.acceptor obj) := by
  intro other different
  rw [← holds, ← context]
  cases other with
  | socket other => exact ⟨rfl, rfl⟩
  | acceptor other =>
      have apart : other ≠ obj := fun same => different (same ▸ rfl)
      constructor <;> funext _ <;>
        simp [Holds, ContextOf, withAcceptor, Function.update_of_ne apart]

section
@[local simp]
def socketClosed (w : World) (obj : Nat) (s : Socket) : World :=
  if 0 ≤ s.sockfd then (w.closed s.sockfd).withSocket obj (some { s with sockfd := -1 }) else w

@[local simp]
def acceptorClosed (w : World) (obj : Nat) (a : Acceptor) : World :=
  if 0 ≤ a.listenfd then (w.closed a.listenfd).withAcceptor obj (some { a with listenfd := -1 })
  else w
end

theorem socketClosed_other {obj obj' : Nat} {s : Socket} (different : obj' ≠ obj) :
    (w.socketClosed obj s).sockets obj' = w.sockets obj' := by
  unfold socketClosed
  split
  · simp [withSocket, closed, Function.update_of_ne different]
  · rfl

theorem acceptorClosed_other {obj obj' : Nat} {a : Acceptor} (different : obj' ≠ obj) :
    (w.acceptorClosed obj a).acceptors obj' = w.acceptors obj' := by
  unfold acceptorClosed
  split
  · simp [withAcceptor, closed, Function.update_of_ne different]
  · rfl

theorem socketClosed_inert {obj : Nat} {s : Socket} (found : w.sockets obj = some s) :
    ∀ fd, (w.socketClosed obj s).Holds (.socket obj) fd → fd < 0 := by
  intro fd holds
  unfold socketClosed at holds
  split at holds
  · obtain ⟨s', stored, rfl⟩ := ((w.closed s.sockfd).holds_withSocket_self obj _ fd).1 holds
    exact Socket.cleared_inert s s' stored
  · obtain ⟨s', found', rfl⟩ := holds
    rw [found] at found'
    cases found'
    omega

theorem acceptorClosed_inert {obj : Nat} {a : Acceptor} (found : w.acceptors obj = some a) :
    ∀ fd, (w.acceptorClosed obj a).Holds (.acceptor obj) fd → fd < 0 := by
  intro fd holds
  unfold acceptorClosed at holds
  split at holds
  · obtain ⟨a', stored, rfl⟩ := ((w.closed a.listenfd).holds_withAcceptor_self obj _ fd).1 holds
    exact Acceptor.cleared_inert a a' stored
  · obtain ⟨a', found', rfl⟩ := holds
    rw [found] at found'
    cases found'
    omega

end World

section Edits

variable {w : World}

theorem released_socket (obj : Nat) (fd : Int) {t : Option Socket}
    (inert : ∀ s ∈ t, s.sockfd < 0) :
    Released w ((w.closed fd).withSocket obj t) (.socket obj) fd :=
  ⟨⟨rfl, rfl, rfl⟩, rfl, fun _ => rfl, w.frame_withSocket (w.holds_closed fd)
    (w.contextOf_closed fd) obj t, fun fd' holds => by
      obtain ⟨s, rfl, rfl⟩ := ((w.closed fd).holds_withSocket_self obj t fd').1 holds
      exact inert s rfl⟩

theorem released_acceptor (obj : Nat) (fd : Int) {t : Option Acceptor}
    (inert : ∀ a ∈ t, a.listenfd < 0) :
    Released w ((w.closed fd).withAcceptor obj t) (.acceptor obj) fd :=
  ⟨⟨rfl, rfl, rfl⟩, rfl, fun _ => rfl, w.frame_withAcceptor (w.holds_closed fd)
    (w.contextOf_closed fd) obj t, fun fd' holds => by
      obtain ⟨a, rfl, rfl⟩ := ((w.closed fd).holds_withAcceptor_self obj t fd').1 holds
      exact inert a rfl⟩

theorem acquired_socket (obj ctx : Nat) (fd : Int) :
    Acquired w (((w.opened fd).withPolled ctx fd true).withSocket obj (some ⟨fd, some ctx⟩))
      (.socket obj) ctx fd := by
  refine ⟨⟨rfl, rfl, rfl⟩, rfl, rfl, w.frame_withSocket (by simp) (by simp) obj _, ?_, ?_⟩
  · intro fd'
    rw [World.holds_withSocket_self]
    constructor
    · rintro ⟨s, found, rfl⟩
      cases found
      rfl
    · rintro rfl
      exact ⟨_, rfl, rfl⟩
  · exact ⟨⟨fd, some ctx⟩, by simp [World.withSocket], rfl⟩

theorem acquired_acceptor (obj ctx : Nat) (fd : Int) :
    Acquired w (((w.opened fd).withPolled ctx fd true).withAcceptor obj (some ⟨fd, ctx⟩))
      (.acceptor obj) ctx fd := by
  refine ⟨⟨rfl, rfl, rfl⟩, rfl, rfl, w.frame_withAcceptor (by simp) (by simp) obj _, ?_, ?_⟩
  · intro fd'
    rw [World.holds_withAcceptor_self]
    constructor
    · rintro ⟨a, found, rfl⟩
      cases found
      rfl
    · rintro rfl
      exact ⟨_, rfl, rfl⟩
  · exact ⟨⟨fd, ctx⟩, by simp [World.withAcceptor], rfl⟩

theorem retouched_socket (obj : Nat) {t : Option Socket} (inert : ∀ s ∈ t, s.sockfd < 0) :
    Retouched w (w.withSocket obj t) (.socket obj) :=
  ⟨⟨rfl, rfl, rfl⟩, rfl, rfl, w.frame_withSocket rfl rfl obj t, fun fd' holds => by
    obtain ⟨s, rfl, rfl⟩ := (w.holds_withSocket_self obj t fd').1 holds
    exact inert s rfl⟩

theorem retouched_acceptor (obj : Nat) {t : Option Acceptor} (inert : ∀ a ∈ t, a.listenfd < 0) :
    Retouched w (w.withAcceptor obj t) (.acceptor obj) :=
  ⟨⟨rfl, rfl, rfl⟩, rfl, rfl, w.frame_withAcceptor rfl rfl obj t, fun fd' holds => by
    obtain ⟨a, rfl, rfl⟩ := (w.holds_withAcceptor_self obj t fd').1 holds
    exact inert a rfl⟩

theorem moved_socket {dst src : Nat} {o : Socket} (found : w.sockets src = some o)
    (different : dst ≠ src) :
    Moved w ((w.withSocket dst (some o)).withSocket src (some Socket.empty)) (.socket src)
      (.socket dst) := by
  have atDst : ((w.withSocket dst (some o)).withSocket src (some Socket.empty)).sockets dst =
      some o := by
    simp [World.withSocket, Function.update_of_ne different]
  refine ⟨⟨rfl, rfl, rfl⟩, rfl, rfl, ?_, ⟨?_, ?_⟩, ?_⟩
  · intro other notSrc notDst
    have first := w.frame_withSocket rfl rfl dst (some o) other notDst
    have second := (w.withSocket dst (some o)).frame_withSocket rfl rfl src (some Socket.empty)
      other notSrc
    exact ⟨second.1.trans first.1, second.2.trans first.2⟩
  · funext fd
    simp [World.Holds, atDst, found]
  · funext ctx
    simp [World.ContextOf, atDst, found]
  · intro fd holds
    obtain ⟨s, found', rfl⟩ := ((w.withSocket dst (some o)).holds_withSocket_self src _ fd).1 holds
    cases found'
    decide

end Edits

/-! ## What each call does -/

section Runs

variable {w : World}

theorem get_bind_run {α : Type} (k : World → Call α) : (get >>= k) w = k w w := rfl

theorem bind_run_ok {α β : Type} {x : Call α} {f : α → Call β} {w' : World} {a : α}
    (ran : x w = .ok a w') : (x >>= f) w = f a w' := by
  show EStateM.bind x f w = f a w'
  unfold EStateM.bind
  rw [ran]

theorem bind_run_error {α β : Type} {x : Call α} {f : α → Call β} {w' : World} {message : String}
    (ran : x w = .error message w') : (x >>= f) w = .error message w' := by
  show EStateM.bind x f w = .error message w'
  unfold EStateM.bind
  rw [ran]

theorem throw_run {α : Type} (message : String) : (throw message : Call α) w = .error message w :=
  rfl

theorem openFd_run (fd : Int) : openFd fd w = .ok () (w.opened fd) := rfl

theorem setSocket_run (obj : Nat) (t : Option Socket) :
    setSocket obj t w = .ok () (w.withSocket obj t) := rfl

theorem setAcceptor_run (obj : Nat) (t : Option Acceptor) :
    setAcceptor obj t w = .ok () (w.withAcceptor obj t) := rfl

theorem sysClose_run {fd : Int} (isOpen : w.isOpen fd = true) :
    sysClose fd w = .ok () (w.closed fd) := by
  show EStateM.Result.ok () (if w.isOpen fd then w.closed fd else _) = _
  rw [if_pos isOpen]

theorem addFd_run {ctx : Nat} {fd : Int} (isOpen : w.isOpen fd = true)
    (unpolled : w.polled ctx fd = false) : addFd ctx fd w = .ok () (w.withPolled ctx fd true) := by
  rw [addFd, get_bind_run, isOpen, unpolled]
  rfl

theorem removeFd_run {ctx : Nat} {fd : Int} (isOpen : w.isOpen fd = true)
    (polled : w.polled ctx fd = true) : removeFd ctx fd w = .ok () (w.withPolled ctx fd false) := by
  rw [removeFd, get_bind_run, isOpen, polled]
  rfl

theorem closed_withPolled (ctx : Nat) (fd : Int) (member : Bool) :
    (w.withPolled ctx fd member).closed fd = w.closed fd := by
  simp only [World.closed, World.withPolled, World.mk.injEq, true_and, and_true]
  funext ctx' fd'
  by_cases same : fd' = fd
  · simp [same]
  · by_cases sameCtx : ctx' = ctx
    · simp [same, sameCtx]
    · simp [same, sameCtx]

variable {outside : Int → Prop}

theorem Socket.close_run (owned : Owned outside w) {obj : Nat} {s : Socket}
    (found : w.sockets obj = some s) : Socket.close obj w = .ok () (w.socketClosed obj s) := by
  by_cases nonneg : 0 ≤ s.sockfd
  · obtain ⟨ctx, ⟨s', found', context⟩, polled⟩ :=
      owned.heldPolled (.socket obj) s.sockfd nonneg ⟨s, found, rfl⟩
    rw [found] at found'
    cases found'
    have isOpen := owned.polledOpen ctx s.sockfd polled
    have stillOpen : (w.withPolled ctx s.sockfd false).isOpen s.sockfd = true := isOpen
    rw [World.socketClosed, if_pos nonneg, Socket.close, get_bind_run, found]
    simp only [if_pos nonneg, context]
    rw [bind_run_ok (removeFd_run isOpen polled), bind_run_ok (sysClose_run stillOpen),
      setSocket_run, closed_withPolled]
  · rw [World.socketClosed, if_neg nonneg, Socket.close, get_bind_run, found]
    simp only [if_neg nonneg]
    rfl

theorem Socket.destroy_run (owned : Owned outside w) {obj : Nat} {s : Socket}
    (found : w.sockets obj = some s) :
    Socket.destroy obj w = .ok () ((w.socketClosed obj s).withSocket obj none) := by
  rw [Socket.destroy, bind_run_ok (Socket.close_run owned found), setSocket_run]

theorem Acceptor.close_run_of {obj : Nat} {a : Acceptor} (found : w.acceptors obj = some a)
    (nonneg : 0 ≤ a.listenfd) (isOpen : w.isOpen a.listenfd = true)
    (polled : w.polled a.ctx a.listenfd = true) :
    Acceptor.close obj w = .ok () (w.acceptorClosed obj a) := by
  have stillOpen : (w.withPolled a.ctx a.listenfd false).isOpen a.listenfd = true := isOpen
  rw [World.acceptorClosed, if_pos nonneg, Acceptor.close, get_bind_run, found]
  simp only [if_pos nonneg]
  rw [bind_run_ok (removeFd_run isOpen polled), bind_run_ok (sysClose_run stillOpen),
    setAcceptor_run, closed_withPolled]

theorem Acceptor.close_of_closed {obj : Nat} {a : Acceptor} (found : w.acceptors obj = some a)
    (nonneg : 0 ≤ a.listenfd) (closed : w.isOpen a.listenfd = false) :
    Acceptor.close obj w = .error "epoll_ctl remove failed" w := by
  rw [Acceptor.close, get_bind_run, found]
  simp only [if_pos nonneg]
  apply bind_run_error
  rw [removeFd, get_bind_run, closed]
  rfl

theorem Acceptor.close_run (owned : Owned outside w) {obj : Nat} {a : Acceptor}
    (found : w.acceptors obj = some a) :
    Acceptor.close obj w = .ok () (w.acceptorClosed obj a) := by
  by_cases nonneg : 0 ≤ a.listenfd
  · obtain ⟨ctx, ⟨a', found', rfl⟩, polled⟩ :=
      owned.heldPolled (.acceptor obj) a.listenfd nonneg ⟨a, found, rfl⟩
    rw [found] at found'
    cases found'
    exact Acceptor.close_run_of found nonneg (owned.polledOpen a.ctx a.listenfd polled) polled
  · rw [World.acceptorClosed, if_neg nonneg, Acceptor.close, get_bind_run, found]
    simp only [if_neg nonneg]
    rfl

theorem Acceptor.destroy_run (owned : Owned outside w) {obj : Nat} {a : Acceptor}
    (found : w.acceptors obj = some a) :
    Acceptor.destroy obj w = .ok () ((w.acceptorClosed obj a).withAcceptor obj none) := by
  rw [Acceptor.destroy, bind_run_ok (Acceptor.close_run owned found), setAcceptor_run]

theorem Socket.create_run {obj ctx : Nat} {fd : Int} (nonneg : 0 ≤ fd) (isOpen : w.isOpen fd = true)
    (unpolled : w.polled ctx fd = false) :
    Socket.create obj fd ctx w =
      .ok () ((w.withPolled ctx fd true).withSocket obj (some ⟨fd, some ctx⟩)) := by
  rw [Socket.create]
  simp only [if_pos nonneg]
  rw [bind_run_ok (addFd_run isOpen unpolled), setSocket_run]

theorem Socket.moveConstruct_run {dst src : Nat} {o : Socket} (found : w.sockets src = some o) :
    Socket.moveConstruct dst src w =
      .ok () ((w.withSocket dst (some o)).withSocket src (some Socket.empty)) := by
  rw [Socket.moveConstruct, get_bind_run, found]
  rfl

theorem Socket.moveAssign_run (owned : Owned outside w) {dst src : Nat} {d o : Socket}
    (different : dst ≠ src) (atDst : w.sockets dst = some d) (atSrc : w.sockets src = some o) :
    Socket.moveAssign dst src w =
      .ok ()
        (((w.socketClosed dst d).withSocket dst (some o)).withSocket src (some Socket.empty)) := by
  rw [Socket.moveAssign]
  simp only [if_pos different]
  rw [bind_run_ok (Socket.close_run owned atDst), get_bind_run,
    w.socketClosed_other different.symm, atSrc]
  rfl

theorem Socket.moveAssign_self (obj : Nat) : Socket.moveAssign obj obj w = .ok () w := by
  rw [Socket.moveAssign]
  simp only [ne_eq, not_true_eq_false, if_false]
  rfl

theorem Acceptor.copy_run (dst src : Nat) :
    Acceptor.copy dst src w = .ok () (w.withAcceptor dst (w.acceptors src)) := rfl

theorem Acceptor.create_without_context (obj : Nat) (fd : Int) (bound listening : Bool) :
    Acceptor.create obj none fd bound listening w = .error "Acceptor needs IOContext" w := rfl

theorem Acceptor.create_without_socket {obj ctx : Nat} {fd : Int} (bound listening : Bool)
    (negative : fd < 0) :
    Acceptor.create obj (some ctx) fd bound listening w = .error "socket failed" w := by
  rw [Acceptor.create]
  simp only [if_pos negative]
  exact bind_run_error (throw_run _)

theorem Acceptor.create_unbound {obj ctx : Nat} {fd : Int} (listening : Bool) (nonneg : 0 ≤ fd) :
    Acceptor.create obj (some ctx) fd false listening w = .error "bind failed" (w.opened fd) := by
  have notNegative : ¬ fd < 0 := by omega
  rw [Acceptor.create]
  simp only [if_neg notNegative]
  rw [bind_run_ok (openFd_run fd)]
  simp only [Bool.not_false, if_true]
  exact bind_run_error (throw_run _)

theorem Acceptor.create_not_listening {obj ctx : Nat} {fd : Int} (nonneg : 0 ≤ fd) :
    Acceptor.create obj (some ctx) fd true false w = .error "listen failed" (w.opened fd) := by
  have notNegative : ¬ fd < 0 := by omega
  rw [Acceptor.create]
  simp only [if_neg notNegative]
  rw [bind_run_ok (openFd_run fd)]
  simp only [Bool.not_true, Bool.not_false, Bool.false_eq_true, if_false, if_true]
  exact bind_run_error (throw_run _)

theorem Acceptor.create_run {obj ctx : Nat} {fd : Int} (nonneg : 0 ≤ fd)
    (unpolled : w.polled ctx fd = false) :
    Acceptor.create obj (some ctx) fd true true w =
      .ok () (((w.opened fd).withPolled ctx fd true).withAcceptor obj (some ⟨fd, ctx⟩)) := by
  have notNegative : ¬ fd < 0 := by omega
  have isOpen : (w.opened fd).isOpen fd = true := Function.update_self ..
  rw [Acceptor.create]
  simp only [if_neg notNegative]
  rw [bind_run_ok (openFd_run fd)]
  simp only [Bool.not_true, Bool.false_eq_true, if_false]
  rw [bind_run_ok (addFd_run isOpen unpolled), setAcceptor_run]

theorem Acceptor.asyncAccept_fails {listener obj : Nat} {a : Acceptor} {cfd : Int}
    (found : w.acceptors listener = some a) (failed : a.listenfd < 0 ∨ cfd < 0) :
    Acceptor.asyncAccept listener obj cfd w = .error "accept failed" w := by
  rw [Acceptor.asyncAccept, get_bind_run, found]
  simp only [if_pos failed]
  exact bind_run_error (throw_run _)

theorem Acceptor.asyncAccept_run {listener obj : Nat} {a : Acceptor} {cfd : Int}
    (found : w.acceptors listener = some a) (listening : 0 ≤ a.listenfd) (nonneg : 0 ≤ cfd)
    (unpolled : w.polled a.ctx cfd = false) :
    Acceptor.asyncAccept listener obj cfd w =
      .ok ()
        (((w.opened cfd).withPolled a.ctx cfd true).withSocket obj (some ⟨cfd, some a.ctx⟩)) := by
  have accepted : ¬ (a.listenfd < 0 ∨ cfd < 0) := by omega
  have isOpen : (w.opened cfd).isOpen cfd = true := Function.update_self ..
  rw [Acceptor.asyncAccept, get_bind_run, found]
  simp only [if_neg accepted]
  rw [bind_run_ok (openFd_run cfd)]
  exact Socket.create_run nonneg isOpen unpolled

end Runs

/-! ## Every step keeps each descriptor with one owner -/

namespace World

variable (w : World)

theorem unheld_socket {obj : Nat} (free : w.sockets obj = none) :
    ∀ fd, w.Holds (.socket obj) fd → fd < 0 := by
  rintro fd ⟨s, found, -⟩
  rw [free] at found
  cases found

theorem unheld_acceptor {obj : Nat} (free : w.acceptors obj = none) :
    ∀ fd, w.Holds (.acceptor obj) fd → fd < 0 := by
  rintro fd ⟨a, found, -⟩
  rw [free] at found
  cases found

theorem acceptorClosed_terminated (obj : Nat) (a : Acceptor) :
    (w.acceptorClosed obj a).terminated = w.terminated := by
  unfold acceptorClosed
  split <;> rfl

theorem acceptorClosed_closes {obj : Nat} {a : Acceptor} (nonneg : 0 ≤ a.listenfd) :
    (w.acceptorClosed obj a).isOpen a.listenfd = false := by
  rw [acceptorClosed, if_pos nonneg]
  exact Function.update_self ..

end World

theorem step_guard {p : Prop} [Decidable p] {next w' : World}
    (stepped : (if p then some next else none) = some w') : p ∧ next = w' := by
  rw [Option.ite_none_right_eq_some, Option.some.injEq] at stepped
  exact stepped

section Steps

variable {outside : Int → Prop} {w : World}

theorem Owned.unleaked (owned : Owned outside w) {l : Label} (clean : ∀ fd, ¬ l.Leaks fd) :
    Owned (fun fd => outside fd ∨ l.Leaks fd) w :=
  owned.congr fun fd => or_iff_left (clean fd)

theorem Owned.socketClosed (owned : Owned outside w) {obj : Nat} {s : Socket}
    (found : w.sockets obj = some s) : Owned outside (w.socketClosed obj s) := by
  unfold World.socketClosed
  split
  · next nonneg =>
      have holds : w.Holds (.socket obj) s.sockfd := ⟨s, found, rfl⟩
      exact owned.released nonneg holds (released_socket obj s.sockfd (Socket.cleared_inert s))
  · exact owned

theorem Owned.acceptorClosed (owned : Owned outside w) {obj : Nat} {a : Acceptor}
    (found : w.acceptors obj = some a) : Owned outside (w.acceptorClosed obj a) := by
  unfold World.acceptorClosed
  split
  · next nonneg =>
      have holds : w.Holds (.acceptor obj) a.listenfd := ⟨a, found, rfl⟩
      exact owned.released nonneg holds
        (released_acceptor obj a.listenfd (Acceptor.cleared_inert a))
  · exact owned

theorem Owned.createAcceptor (owned : Owned outside w) {obj : Nat} {ctx : Option Nat} {fd : Int}
    {bound listening : Bool} (fresh : w.Fresh fd) (free : w.acceptors obj = none) :
    Owned (fun fd' => outside fd' ∨ (Label.createAcceptor obj ctx fd bound listening).Leaks fd')
      (caught (Acceptor.create obj ctx fd bound listening w)) := by
  cases ctx with
  | none =>
      rw [Acceptor.create_without_context]
      exact (owned.thrown (.inl rfl)).unleaked fun _ leaks => leaks
  | some ctx =>
      by_cases negative : fd < 0
      · rw [Acceptor.create_without_socket bound listening negative]
        refine (owned.thrown (.inr (.inl rfl))).unleaked fun _ leaks => ?_
        have := leaks.2.1
        omega
      have nonneg : 0 ≤ fd := by omega
      have closed : w.isOpen fd = false := fresh.resolve_left negative
      cases bound with
      | false =>
          rw [Acceptor.create_unbound listening nonneg]
          refine (owned.leaked nonneg closed (.inr (.inr (.inl rfl)))).congr fun fd' => ?_
          simp [Label.Leaks, nonneg]
      | true =>
          cases listening with
          | false =>
              rw [Acceptor.create_not_listening nonneg]
              refine (owned.leaked nonneg closed (.inr (.inr (.inr (.inl rfl))))).congr
                fun fd' => ?_
              simp [Label.Leaks, nonneg]
          | true =>
              rw [Acceptor.create_run nonneg (owned.unpolled_of_closed closed)]
              refine (owned.acquired closed (w.unheld_acceptor free)
                (acquired_acceptor obj ctx fd)).unleaked fun _ leaks => ?_
              simp [Label.Leaks] at leaks

theorem Owned.accept (owned : Owned outside w) {listener obj : Nat} {a : Acceptor} {fd : Int}
    (found : w.acceptors listener = some a) (fresh : w.Fresh fd) (free : w.sockets obj = none) :
    Owned outside (caught (Acceptor.asyncAccept listener obj fd w)) := by
  by_cases failed : a.listenfd < 0 ∨ fd < 0
  · rw [Acceptor.asyncAccept_fails found failed]
    exact owned.thrown (.inr (.inr (.inr (.inr rfl))))
  · have listening : 0 ≤ a.listenfd := by omega
    have nonneg : 0 ≤ fd := by omega
    have closed : w.isOpen fd = false := fresh.resolve_left (by omega)
    rw [Acceptor.asyncAccept_run found listening nonneg (owned.unpolled_of_closed closed)]
    exact owned.acquired closed (w.unheld_socket free) (acquired_socket obj a.ctx fd)

theorem Owned.step (owned : Owned outside w) {l : Label} {w' : World}
    (noCopy : l.copiesAcceptor = false) (stepped : step w l = some w') :
    Owned (fun fd => outside fd ∨ l.Leaks fd) w' := by
  cases l with
  | createAcceptor obj ctx fd bound listening =>
      obtain ⟨⟨-, free, fresh⟩, rfl⟩ := step_guard stepped
      exact owned.createAcceptor fresh free
  | copyAcceptor dst src => cases noCopy
  | closeAcceptor obj =>
      obtain ⟨⟨-, present⟩, rfl⟩ := step_guard stepped
      obtain ⟨a, found⟩ := Option.isSome_iff_exists.1 present
      rw [Acceptor.close_run owned found]
      exact (owned.acceptorClosed found).unleaked fun _ leaks => leaks
  | destroyAcceptor obj =>
      obtain ⟨⟨-, present⟩, rfl⟩ := step_guard stepped
      obtain ⟨a, found⟩ := Option.isSome_iff_exists.1 present
      rw [Acceptor.destroy_run owned found]
      refine ((owned.acceptorClosed found).retouched (w.acceptorClosed_inert found)
        (retouched_acceptor obj ?_)).unleaked fun _ leaks => leaks
      intro a' stored
      cases stored
  | accept listener obj fd =>
      obtain ⟨⟨-, present, free, fresh⟩, rfl⟩ := step_guard stepped
      obtain ⟨a, found⟩ := Option.isSome_iff_exists.1 present
      exact (owned.accept found fresh free).unleaked fun _ leaks => leaks
  | createEmpty obj =>
      obtain ⟨⟨-, free⟩, rfl⟩ := step_guard stepped
      rw [setSocket_run]
      refine (owned.retouched (w.unheld_socket free) (retouched_socket obj ?_)).unleaked
        fun _ leaks => leaks
      intro s stored
      cases stored
      decide
  | moveConstruct dst src =>
      obtain ⟨⟨-, free, present⟩, rfl⟩ := step_guard stepped
      obtain ⟨o, found⟩ := Option.isSome_iff_exists.1 present
      have different : dst ≠ src := fun same => by
        rw [same, found] at free
        cases free
      rw [Socket.moveConstruct_run found]
      exact (owned.moved (w.unheld_socket free) (moved_socket found different)).unleaked
        fun _ leaks => leaks
  | moveAssign dst src =>
      obtain ⟨⟨-, presentDst, presentSrc⟩, rfl⟩ := step_guard stepped
      obtain ⟨d, atDst⟩ := Option.isSome_iff_exists.1 presentDst
      obtain ⟨o, atSrc⟩ := Option.isSome_iff_exists.1 presentSrc
      by_cases same : dst = src
      · subst same
        rw [Socket.moveAssign_self]
        exact owned.unleaked fun _ leaks => leaks
      have stillAtSrc : (w.socketClosed dst d).sockets src = some o :=
        (w.socketClosed_other (Ne.symm same)).trans atSrc
      rw [Socket.moveAssign_run owned same atDst atSrc]
      exact ((owned.socketClosed atDst).moved (w.socketClosed_inert atDst)
        (moved_socket stillAtSrc same)).unleaked fun _ leaks => leaks
  | close obj =>
      obtain ⟨⟨-, present⟩, rfl⟩ := step_guard stepped
      obtain ⟨s, found⟩ := Option.isSome_iff_exists.1 present
      rw [Socket.close_run owned found]
      exact (owned.socketClosed found).unleaked fun _ leaks => leaks
  | destroy obj =>
      obtain ⟨⟨-, present⟩, rfl⟩ := step_guard stepped
      obtain ⟨s, found⟩ := Option.isSome_iff_exists.1 present
      rw [Socket.destroy_run owned found]
      refine ((owned.socketClosed found).retouched (w.socketClosed_inert found)
        (retouched_socket obj ?_)).unleaked fun _ leaks => leaks
      intro s' stored
      cases stored

end Steps

theorem initial_unheld (foreign : Int → Bool) (owner : Owner) (fd : Int) :
    ¬ (initial foreign).Holds owner fd := by
  cases owner <;> rintro ⟨_, found, -⟩ <;> cases found

theorem owned_initial (foreign : Int → Bool) :
    Owned (fun fd => foreign fd = true) (initial foreign) where
  running := rfl
  closesOpen := rfl
  thrownByEnvironment _ thrown := by cases thrown
  outsideOpen _ foreign' := foreign'
  outsideUnheld owner fd _ _ := initial_unheld foreign owner fd
  openHeld _ _ open' := .inl open'
  polledOpen _ _ polled := by cases polled
  heldPolled owner fd _ holds := absurd holds (initial_unheld foreign owner fd)
  apart owner _ fd _ holds := absurd holds (initial_unheld foreign owner fd)

theorem owned_of_exec : ∀ (labels : List Label) (outside : Int → Prop) (w final : World),
    Owned outside w → (∀ l ∈ labels, l.copiesAcceptor = false) →
    Run.exec step w labels = some final →
    Owned (fun fd => outside fd ∨ ∃ l ∈ labels, l.Leaks fd) final := by
  intro labels
  induction labels with
  | nil =>
      intro outside w final owned _ ran
      rw [Run.exec_nil, Option.some.injEq] at ran
      subst ran
      exact owned.congr fun fd => by simp
  | cons l labels ih =>
      intro outside w final owned noCopy ran
      rw [Run.exec_cons, Option.bind_eq_some_iff] at ran
      obtain ⟨next, stepped, rest⟩ := ran
      have stepOwned := owned.step (noCopy l List.mem_cons_self) stepped
      have restOwned := ih _ next final stepOwned
        (fun l' member => noCopy l' (List.mem_cons_of_mem _ member)) rest
      exact restOwned.congr fun fd => by
        simp only [List.mem_cons, or_and_right, exists_or, exists_eq_left, or_assoc]

/-! ## Runs from the start of the program -/

theorem sockets_own_descriptors (foreign : Int → Bool) (labels : List Label) (final : World)
    (noCopy : ∀ l ∈ labels, l.copiesAcceptor = false)
    (ran : Run.exec step (initial foreign) labels = some final) :
    Owned (fun fd => foreign fd = true ∨ ∃ l ∈ labels, l.Leaks fd) final :=
  owned_of_exec labels _ _ final (owned_initial foreign) noCopy ran

def standardStreams (fd : Int) : Bool := decide (0 ≤ fd ∧ fd < 3)

def serverRun : List Label :=
  [.createAcceptor 0 (some 0) 3 true true, .accept 0 0 4, .createEmpty 1, .moveAssign 1 0,
    .destroy 0, .destroy 1, .destroyAcceptor 0]

theorem sockets_own_descriptors_server :
    ∃ final, Run.exec step (initial standardStreams) serverRun = some final ∧
      Owned (fun fd => standardStreams fd = true ∨ ∃ l ∈ serverRun, l.Leaks fd) final :=
  ⟨_, rfl, sockets_own_descriptors standardStreams serverRun _ (by decide) rfl⟩

/-- A descriptor that `::socket` gave a constructor whose `bind` or `listen` then failed stays
open to the end of the run, and no object holds it to close it. -/
theorem acceptor_bind_failure_leaks (foreign : Int → Bool) (before after : List Label)
    (obj ctx : Nat) (fd : Int) (bound listening : Bool) (final : World)
    (failed : bound = false ∨ listening = false) (nonneg : 0 ≤ fd)
    (noCopy : ∀ l ∈ before ++ .createAcceptor obj (some ctx) fd bound listening :: after,
      l.copiesAcceptor = false)
    (ran : Run.exec step (initial foreign)
      (before ++ .createAcceptor obj (some ctx) fd bound listening :: after) = some final) :
    final.isOpen fd = true ∧ ∀ owner, ¬ final.Holds owner fd := by
  have owned := owned_of_exec _ _ _ final (owned_initial foreign) noCopy ran
  have leaked : ∃ l ∈ before ++ .createAcceptor obj (some ctx) fd bound listening :: after,
      l.Leaks fd :=
    ⟨_, List.mem_append_right _ List.mem_cons_self, rfl, nonneg, failed⟩
  exact ⟨owned.outsideOpen fd (.inr leaked),
    fun owner => owned.outsideUnheld owner fd (.inr leaked) nonneg⟩

theorem acceptor_bind_failure_leaks_retry :
    ∃ final, Run.exec step (initial standardStreams)
        ([] ++ .createAcceptor 0 (some 0) 3 false true ::
          [.createAcceptor 0 (some 0) 4 true true]) =
        some final ∧
      final.isOpen 3 = true ∧ ∀ owner, ¬ final.Holds owner 3 :=
  ⟨_, rfl, acceptor_bind_failure_leaks standardStreams [] [.createAcceptor 0 (some 0) 4 true true]
    0 0 3 false true _ (.inl rfl) (by decide) (by decide) rfl⟩

/-! ## A copy of an `Acceptor` -/

section Copy

variable {w : World}

theorem step_copyAcceptor {dst src : Nat} {a : Acceptor} (running : w.terminated = false)
    (free : w.acceptors dst = none) (found : w.acceptors src = some a) :
    step w (.copyAcceptor dst src) = some (w.withAcceptor dst (some a)) := by
  have guard : w.terminated = false ∧ w.acceptors dst = none ∧ (w.acceptors src).isSome :=
    ⟨running, free, by rw [found]; rfl⟩
  rw [step, if_pos guard, Acceptor.copy_run, found]
  rfl

theorem step_destroyAcceptor {obj : Nat} {a : Acceptor} (running : w.terminated = false)
    (found : w.acceptors obj = some a) (nonneg : 0 ≤ a.listenfd)
    (isOpen : w.isOpen a.listenfd = true) (polled : w.polled a.ctx a.listenfd = true) :
    step w (.destroyAcceptor obj) = some ((w.acceptorClosed obj a).withAcceptor obj none) := by
  have guard : w.terminated = false ∧ (w.acceptors obj).isSome := ⟨running, by rw [found]; rfl⟩
  rw [step, if_pos guard, Acceptor.destroy,
    bind_run_ok (Acceptor.close_run_of found nonneg isOpen polled), setAcceptor_run]
  rfl

theorem step_destroyAcceptor_closed {obj : Nat} {a : Acceptor} (running : w.terminated = false)
    (found : w.acceptors obj = some a) (nonneg : 0 ≤ a.listenfd)
    (closed : w.isOpen a.listenfd = false) :
    step w (.destroyAcceptor obj) = some { w with terminated := true } := by
  have guard : w.terminated = false ∧ (w.acceptors obj).isSome := ⟨running, by rw [found]; rfl⟩
  rw [step, if_pos guard, Acceptor.destroy,
    bind_run_error (Acceptor.close_of_closed found nonneg closed)]
  rfl

end Copy

/-- From any world a copy-free run reaches, copying a listening `Acceptor` and destroying the
copy and then the original ends the program: the copy closes the descriptor both hold, and the
original's `remove_fd` throws out of its destructor. -/
theorem acceptor_copy_terminates (foreign : Int → Bool) (labels : List Label) (w : World)
    (noCopy : ∀ l ∈ labels, l.copiesAcceptor = false)
    (reached : Run.exec step (initial foreign) labels = some w)
    (obj copy : Nat) (a : Acceptor) (found : w.acceptors obj = some a) (listening : 0 ≤ a.listenfd)
    (free : w.acceptors copy = none) :
    ∃ final, Run.exec step w [.copyAcceptor copy obj, .destroyAcceptor copy, .destroyAcceptor obj] =
      some final ∧ final.terminated = true := by
  have owned := owned_of_exec labels _ _ w (owned_initial foreign) noCopy reached
  obtain ⟨ctx, ⟨a', found', rfl⟩, polled⟩ :=
    owned.heldPolled (.acceptor obj) a.listenfd listening ⟨a, found, rfl⟩
  rw [found] at found'
  cases found'
  have isOpen := owned.polledOpen a.ctx a.listenfd polled
  have different : obj ≠ copy := fun same => by
    rw [same, free] at found
    cases found
  have copied := step_copyAcceptor owned.running free found
  have atCopy : (w.withAcceptor copy (some a)).acceptors copy = some a := Function.update_self ..
  have destroyed : step (w.withAcceptor copy (some a)) (.destroyAcceptor copy) =
      some (((w.withAcceptor copy (some a)).acceptorClosed copy a).withAcceptor copy none) :=
    step_destroyAcceptor owned.running atCopy listening isOpen polled
  have atObj : (((w.withAcceptor copy (some a)).acceptorClosed copy a).withAcceptor copy
      none).acceptors obj = some a := by
    show Function.update ((w.withAcceptor copy (some a)).acceptorClosed copy a).acceptors copy none
      obj = some a
    rw [Function.update_of_ne different, World.acceptorClosed_other _ different]
    show Function.update w.acceptors copy (some a) obj = some a
    rw [Function.update_of_ne different, found]
  have closed : (((w.withAcceptor copy (some a)).acceptorClosed copy a).withAcceptor copy
      none).isOpen a.listenfd = false :=
    World.acceptorClosed_closes _ listening
  have ended : step (((w.withAcceptor copy (some a)).acceptorClosed copy a).withAcceptor copy none)
      (.destroyAcceptor obj) = some { ((w.withAcceptor copy (some a)).acceptorClosed copy
        a).withAcceptor copy none with terminated := true } :=
    step_destroyAcceptor_closed
      (((w.withAcceptor copy (some a)).acceptorClosed_terminated copy a).trans owned.running)
      atObj listening closed
  rw [Run.exec_cons, copied, Option.bind_some, Run.exec_cons, destroyed, Option.bind_some,
    Run.exec_cons, ended, Option.bind_some, Run.exec_nil]
  exact ⟨_, rfl, rfl⟩

theorem acceptor_copy_terminates_server :
    ∃ w, Run.exec step (initial standardStreams) [.createAcceptor 0 (some 0) 3 true true] =
        some w ∧
      ∃ final, Run.exec step w [.copyAcceptor 1 0, .destroyAcceptor 1, .destroyAcceptor 0] =
        some final ∧ final.terminated = true :=
  ⟨_, rfl, acceptor_copy_terminates standardStreams [.createAcceptor 0 (some 0) 3 true true] _
    (by decide) rfl 0 1 ⟨3, 0⟩ rfl (by decide) rfl⟩

end Sockets

end HighSpeed
