import Mathlib.Data.List.Nodup
import Mathlib.Data.List.Forall2

/-!
# Steps that end well

A step that may fail is taken apart by its good ends: a sequence ends well exactly if its first
part does and the rest does from there. Traversals of a list are treated the same way; a
traversal that collects one new entry after the other is characterized from any accepted start,
which is what its induction needs.
-/
namespace CircuitNetlist

section Sequence
variable {ε α β : Type}

theorem pure_eq_ok {a b : α} : (pure a : Except ε α) = .ok b ↔ a = b := by
  change Except.ok a = Except.ok b ↔ a = b
  rw [Except.ok.injEq]

theorem throw_ne_ok {e : ε} {a : α} : (throw e : Except ε α) ≠ .ok a := by
  intro h
  cases h

theorem throw_bind_ne_ok {e : ε} {f : α → Except ε β} {b : β} : (throw e >>= f) ≠ .ok b := by
  intro h
  cases h

/-- A sequence ends well exactly if both of its parts do. -/
theorem bind_eq_ok {x : Except ε α} {f : α → Except ε β} {b : β} :
    x >>= f = .ok b ↔ ∃ a, x = .ok a ∧ f a = .ok b := by
  cases x with
  | error e =>
      constructor
      · intro h
        cases h
      · intro h
        obtain ⟨a, first, -⟩ := h
        cases first
  | ok a =>
      constructor
      · intro h
        exact ⟨a, rfl, h⟩
      · intro h
        obtain ⟨a', first, rest⟩ := h
        obtain rfl := Except.ok.inj first
        exact rest

/-- A sequence fails in its first part, or in the rest after a good first part. -/
theorem bind_eq_error {x : Except ε α} {f : α → Except ε β} {e : ε} :
    x >>= f = .error e ↔ x = .error e ∨ ∃ a, x = .ok a ∧ f a = .error e := by
  cases x with
  | error e' =>
      change Except.error e' = Except.error e ↔ _
      simp
  | ok a =>
      change f a = .error e ↔ _
      simp

/-- A traversal fails exactly at its first step that fails, after the steps before it. -/
theorem foldlM_eq_error {σ : Type} {step : σ → α → Except ε σ} {xs : List α} {s : σ} {e : ε} :
    xs.foldlM step s = .error e ↔
      ∃ front x back between, xs = front ++ x :: back ∧ front.foldlM step s = .ok between ∧
        step between x = .error e := by
  induction xs generalizing s with
  | nil => simp [pure, Except.pure]
  | cons x xs ih =>
      rw [List.foldlM_cons, bind_eq_error]
      constructor
      · intro h
        rcases h with failed | ⟨s', first, rest⟩
        · exact ⟨[], x, xs, s, rfl, rfl, failed⟩
        · obtain ⟨front, y, back, between, rfl, before, failed⟩ := ih.mp rest
          refine ⟨x :: front, y, back, between, rfl, ?_, failed⟩
          rw [List.foldlM_cons, bind_eq_ok]
          exact ⟨s', first, before⟩
      · intro h
        obtain ⟨front, y, back, between, split, before, failed⟩ := h
        rcases List.cons_eq_append_iff.mp split with ⟨rfl, here⟩ | ⟨front', rfl, rest⟩
        · obtain ⟨rfl, rfl⟩ := List.cons.inj here
          obtain rfl := Except.ok.inj before
          exact .inl failed
        · rw [List.foldlM_cons, bind_eq_ok] at before
          obtain ⟨s', first, later⟩ := before
          exact .inr ⟨s', first, ih.mpr ⟨front', y, back, between, rest, later, failed⟩⟩

/-- The results of a traversal stand at the places of what they were made from. -/
theorem mapM_eq_ok {f : α → Except ε β} {xs : List α} {ys : List β} :
    xs.mapM f = .ok ys ↔ List.Forall₂ (fun x y => f x = .ok y) xs ys := by
  induction xs generalizing ys with
  | nil =>
      rw [List.mapM_nil, pure_eq_ok, List.forall₂_nil_left_iff]
      exact eq_comm
  | cons x xs ih =>
      simp only [List.mapM_cons, bind_eq_ok, pure_eq_ok, ih, List.forall₂_cons_left_iff]
      constructor
      · intro h
        obtain ⟨y, first, rest, others, same⟩ := h
        exact ⟨y, rest, first, others, same.symm⟩
      · intro h
        obtain ⟨y, rest, first, others, same⟩ := h
        exact ⟨y, first, rest, others, same.symm⟩

end Sequence

/-! ### What can go wrong -/

/-- Whatever goes wrong in the step is one of these. -/
def FailsWith {ε α : Type} (P : ε → Prop) (step : Except ε α) : Prop :=
  ∀ e, step = .error e → P e

namespace FailsWith
variable {ε ε' α β σ : Type} {P : ε → Prop}

theorem pure (a : α) : FailsWith P (pure a : Except ε α) := by
  intro e failed
  cases failed

theorem throw {e : ε} (h : P e) : FailsWith P (throw e : Except ε α) := by
  intro e' failed
  obtain rfl := Except.error.inj failed
  exact h

theorem ite {c : Prop} [Decidable c] {step step' : Except ε α} (h : FailsWith P step)
    (h' : FailsWith P step') : FailsWith P (if c then step else step') := by
  by_cases here : c
  · rw [if_pos here]
    exact h
  · rw [if_neg here]
    exact h'

theorem bind {step : Except ε α} {next : α → Except ε β} (h : FailsWith P step)
    (rest : ∀ a, FailsWith P (next a)) : FailsWith P (step >>= next) := by
  intro e failed
  rcases bind_eq_error.mp failed with first | ⟨a, -, later⟩
  · exact h e first
  · exact rest a e later

theorem foldlM {step : σ → α → Except ε σ} (one : ∀ s x, FailsWith P (step s x)) (xs : List α)
    (s : σ) : FailsWith P (xs.foldlM step s) := by
  intro e failed
  obtain ⟨-, x, -, between, -, -, here⟩ := foldlM_eq_error.mp failed
  exact one between x e here

theorem mapM {step : α → Except ε β} (one : ∀ x, FailsWith P (step x)) (xs : List α) :
    FailsWith P (xs.mapM step) := by
  induction xs with
  | nil =>
      rw [List.mapM_nil]
      exact pure []
  | cons x xs ih =>
      rw [List.mapM_cons]
      apply (one x).bind
      intro y
      apply ih.bind
      intro ys
      exact pure (y :: ys)

theorem map {f : α → β} {step : Except ε α} (h : FailsWith P step) : FailsWith P (step.map f) := by
  intro e failed
  cases result : step with
  | ok a =>
      rw [result] at failed
      cases failed
  | error e' =>
      rw [result] at failed
      obtain rfl := Except.error.inj failed
      exact h e' result

theorem mapError {Q : ε' → Prop} {f : ε → ε'} {step : Except ε α} (h : FailsWith P step)
    (all : ∀ e, P e → Q (f e)) : FailsWith Q (step.mapError f) := by
  intro e' failed
  cases result : step with
  | ok a =>
      rw [result] at failed
      cases failed
  | error e =>
      rw [result] at failed
      obtain rfl := Except.error.inj failed
      exact all e (h e result)

end FailsWith

section Collecting
variable {ε α β κ : Type}

/-- The last of some distinct keys is new. -/
theorem nodup_map_concat {key : β → κ} {ys : List β} {y : β} :
    ((ys ++ [y]).map key).Nodup ↔ key y ∉ ys.map key ∧ (ys.map key).Nodup := by
  rw [List.map_append, List.map_singleton, ← List.concat_eq_append, List.nodup_concat]

/-- Among distinct keys an entry is found under its own. -/
theorem find?_of_nodup [BEq κ] [LawfulBEq κ] {key : β → κ} {ys : List β}
    (distinct : (ys.map key).Nodup) {y : β} (mem : y ∈ ys) :
    ys.find? (key · == key y) = some y := by
  induction ys with
  | nil => simp at mem
  | cons first rest ih =>
      rw [List.map_cons, List.nodup_cons] at distinct
      rcases List.mem_cons.mp mem with rfl | mem
      · simp
      · have other : (key first == key y) = false := by
          apply beq_false_of_ne
          intro same
          exact distinct.1 (same ▸ List.mem_map_of_mem mem)
        rw [List.find?_cons, other]
        exact ih distinct.2 mem

/-- So it does not matter where they stand. -/
theorem find?_of_perm [BEq κ] [LawfulBEq κ] {key : β → κ} {ys zs : List β} (same : ys.Perm zs)
    (distinct : (ys.map key).Nodup) (k : κ) :
    ys.find? (key · == k) = zs.find? (key · == k) := by
  have distinct' : (zs.map key).Nodup := (same.map key).nodup_iff.mp distinct
  cases found : ys.find? (key · == k) with
  | some y =>
      have named : key y = k := by simpa using List.find?_some found
      have mem : y ∈ zs := same.mem_iff.mp (List.mem_of_find?_eq_some found)
      rw [← named, find?_of_nodup distinct' mem]
  | none =>
      rw [List.find?_eq_none] at found
      apply Eq.symm
      rw [List.find?_eq_none]
      intro z mem
      exact found z (same.mem_iff.mpr mem)

/-- What a traversal has collected comes from its list, entry by entry, and has distinct keys. -/
theorem collect_eq_ok {step : List β → α → Except ε (List β)} {source : β → α}
    {good : β → Prop} {key : β → κ}
    (one : ∀ {before x after}, step before x = .ok after ↔
      ∃ y, source y = x ∧ good y ∧ key y ∉ before.map key ∧ after = before ++ [y])
    {xs : List α} {before after : List β} (start : (before.map key).Nodup) :
    xs.foldlM step before = .ok after ↔
      ∃ added, after = before ++ added ∧ added.map source = xs ∧ (∀ y ∈ added, good y) ∧
        (after.map key).Nodup := by
  induction xs generalizing before with
  | nil =>
      rw [List.foldlM_nil, pure_eq_ok]
      constructor
      · intro same
        rw [← same]
        exact ⟨[], by simp, rfl, by simp, start⟩
      · intro h
        obtain ⟨added, same, none, -, -⟩ := h
        rw [same, List.map_eq_nil_iff.mp none, List.append_nil]
  | cons x xs ih =>
      rw [List.foldlM_cons, bind_eq_ok]
      constructor
      · intro h
        obtain ⟨between, first, rest⟩ := h
        obtain ⟨y, made, fine, fresh, rfl⟩ := one.mp first
        obtain ⟨added, rfl, sources, each, distinct⟩ :=
          (ih (nodup_map_concat.mpr ⟨fresh, start⟩)).mp rest
        refine ⟨y :: added, by simp, by simp [made, sources], ?_, distinct⟩
        exact List.forall_mem_cons.mpr ⟨fine, each⟩
      · intro h
        obtain ⟨all, same, sources, each, distinct⟩ := h
        obtain ⟨y, added, rfl, made, sources⟩ := List.map_eq_cons_iff.mp sources
        rw [List.append_cons] at same
        subst same
        have start' : ((before ++ [y]).map key).Nodup := by
          rw [List.map_append] at distinct
          exact (List.nodup_append.mp distinct).1
        have fresh := (nodup_map_concat.mp start').1
        have both := List.forall_mem_cons.mp each
        refine ⟨before ++ [y], one.mpr ⟨y, made, both.1, fresh, rfl⟩, ?_⟩
        exact (ih start').mpr ⟨added, rfl, sources, both.2, distinct⟩

end Collecting

end CircuitNetlist
