import Mathlib.Data.List.Basic
import Mathlib.Data.List.Perm.Subperm
import Mathlib.Logic.Function.Basic
import Mathlib.Logic.Relation

/-!
Runs of labelled transition systems.
-/

namespace Run

section Deterministic

variable {σ τ α : Type}

theorem simulate (related : σ → τ → Prop) (concrete : σ → α → σ) (abstract : τ → α → τ)
    (preserved : ∀ state spec label, related state spec →
      related (concrete state label) (abstract spec label)) :
    ∀ (labels : List α) state spec, related state spec →
      related (labels.foldl concrete state) (labels.foldl abstract spec) := by
  intro labels
  induction labels with
  | nil => intro state spec holds; exact holds
  | cons label labels ih =>
      intro state spec holds
      exact ih _ _ (preserved state spec label holds)

end Deterministic

section Guarded

variable {σ α : Type}

def exec (step : σ → α → Option σ) : σ → List α → Option σ
  | state, [] => some state
  | state, label :: labels => (step state label).bind fun next => exec step next labels

@[simp] theorem exec_nil (step : σ → α → Option σ) (state : σ) : exec step state [] = some state :=
  rfl

theorem exec_cons (step : σ → α → Option σ) (state : σ) (label : α) (labels : List α) :
    exec step state (label :: labels) = (step state label).bind fun next => exec step next labels :=
  rfl

theorem exec_preserves (step : σ → α → Option σ) (holds : σ → Prop) (allowed : α → Prop)
    (preserved : ∀ state label next, allowed label → holds state → step state label = some next →
      holds next) :
    ∀ labels state final, (∀ label ∈ labels, allowed label) → holds state →
      exec step state labels = some final → holds final := by
  intro labels
  induction labels with
  | nil =>
      intro state final _ holdsNow ran
      simp only [exec_nil, Option.some.injEq] at ran
      exact ran ▸ holdsNow
  | cons label labels ih =>
      intro state final allowedAll holdsNow ran
      rw [exec_cons, Option.bind_eq_some_iff] at ran
      obtain ⟨next, stepped, rest⟩ := ran
      exact ih next final (fun other member => allowedAll other (List.mem_cons_of_mem _ member))
        (preserved state label next (allowedAll label List.mem_cons_self) holdsNow stepped) rest

def Reachable (step : σ → α → Option σ) (start : σ) : σ → Prop :=
  Relation.ReflTransGen (fun state next => ∃ label, step state label = some next) start

theorem reachable_of_exec (step : σ → α → Option σ) :
    ∀ labels start final, exec step start labels = some final → Reachable step start final := by
  intro labels
  induction labels with
  | nil =>
      intro start final ran
      simp only [exec_nil, Option.some.injEq] at ran
      exact ran ▸ Relation.ReflTransGen.refl
  | cons label labels ih =>
      intro start final ran
      rw [exec_cons, Option.bind_eq_some_iff] at ran
      obtain ⟨next, stepped, rest⟩ := ran
      exact Relation.ReflTransGen.head ⟨label, stepped⟩ (ih next final rest)

theorem Reachable.invariant {step : σ → α → Option σ} {start : σ} (holds : σ → Prop)
    (initial : holds start)
    (preserved : ∀ state label next, holds state → step state label = some next → holds next)
    {state : σ} (reached : Reachable step start state) : holds state := by
  induction reached with
  | refl => exact initial
  | tail _ stepped ih =>
      obtain ⟨label, stepped⟩ := stepped
      exact preserved _ label _ ih stepped

end Guarded

section Threads

variable {ι β : Type} [DecidableEq ι]

theorem filterMap_update_perm (holding : ι → Option β) (thread : ι) (item : Option β) :
    ∀ threads : List ι, threads.Nodup → thread ∈ threads →
      (threads.filterMap (Function.update holding thread item) ++ (holding thread).toList).Perm
        (threads.filterMap holding ++ item.toList) := by
  classical
  have consCount : ∀ (f : ι → Option β) (first : ι) (rest : List ι) (b : β),
      ((first :: rest).filterMap f).count b = (f first).toList.count b + (rest.filterMap f).count b := by
    intro f first rest b
    cases holds : f first with
    | none => simp [holds]
    | some held =>
        simp only [List.filterMap_cons, holds, List.count_cons, Option.toList_some, List.count_nil]
        omega
  intro threads
  induction threads with
  | nil => exact fun _ absent => absurd absent List.not_mem_nil
  | cons first rest ih =>
      intro distinct member
      obtain ⟨notInRest, restDistinct⟩ := List.nodup_cons.mp distinct
      rw [List.perm_iff_count]
      intro b
      simp only [List.count_append, consCount]
      by_cases same : first = thread
      · -- the moved thread is the first one, and the rest hold what they held
        subst same
        have restSame : rest.filterMap (Function.update holding first item) =
            rest.filterMap holding :=
          List.filterMap_congr fun other otherMember =>
            Function.update_of_ne (fun (equal : other = first) => notInRest (equal ▸ otherMember)) _ _
        rw [restSame, Function.update_self]
        omega
      · have inRest : thread ∈ rest := (List.mem_cons.mp member).resolve_left (Ne.symm same)
        have restCounts := List.perm_iff_count.mp (ih restDistinct inRest) b
        simp only [List.count_append] at restCounts
        rw [Function.update_of_ne same]
        omega

theorem subperm_of_append_perm {l₁ l₂ m₁ m₂ : List β} (same : (l₁ ++ l₂).Perm (m₁ ++ m₂))
    (smaller : m₂.Subperm l₂) : l₁.Subperm m₁ := by
  classical
  rw [List.subperm_ext_iff]
  intro item _
  have total := List.perm_iff_count.mp same item
  have bounded := smaller.count_le item
  simp only [List.count_append] at total
  omega

end Threads

end Run
