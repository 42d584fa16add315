import CircuitNetlist.Proofs.Steps
import CircuitNetlist.Session.Text

/-!
# Scripts that end well

The good end of a script is kept together with the lines written on the way, so that the lines
of a whole run are the lines of its parts in order. A fault is none of these cases; it is
treated where a statement is about faults.
-/
namespace CircuitNetlist

namespace Script
variable {α β σ : Type}

/-- The script ends with a value after writing exactly these lines. -/
structure Writes (m : Script α) (lines : List Line) (a : α) : Prop where
  result : m.result = .ok a
  written : m.lines = lines

theorem writes_iff {m : Script α} {ls : List Line} {a : α} :
    m.Writes ls a ↔ m.result = .ok a ∧ m.lines = ls :=
  ⟨fun h => ⟨h.result, h.written⟩, fun h => ⟨h.1, h.2⟩⟩

/-- A good end determines the lines. -/
theorem writes_of_result {m : Script α} {a : α} (h : m.result = .ok a) : m.Writes m.lines a :=
  ⟨h, rfl⟩

@[simp] theorem writes_pure {a b : α} {ls : List Line} :
    (pure a : Script α).Writes ls b ↔ ls = [] ∧ a = b := by
  rw [writes_iff]
  simp [lines, and_comm, eq_comm]

theorem lines_bind_of_ok {m : Script α} {a : α} (h : m.result = .ok a) (f : α → Script β) :
    (m >>= f).lines = m.lines ++ (f a).lines := by
  rw [bind_of_ok h]
  exact List.filterMap_append

theorem lines_within (place : Place) (m : Script α) : (m.within place).lines = m.lines :=
  List.filterMap_map

/-- The lines of a sequence are those of its parts, one after the other. -/
theorem writes_bind {m : Script α} {f : α → Script β} {ls : List Line} {b : β} :
    (m >>= f).Writes ls b ↔
      ∃ a before after, m.Writes before a ∧ (f a).Writes after b ∧ ls = before ++ after := by
  cases h : m.result with
  | error fault =>
      rw [bind_of_error h]
      constructor
      · intro w
        cases w.result
      · intro both
        obtain ⟨a, before, after, w, -, -⟩ := both
        rw [w.result] at h
        cases h
  | ok a =>
      rw [writes_iff, lines_bind_of_ok h, bind_of_ok h]
      constructor
      · intro w
        exact ⟨a, m.lines, (f a).lines, ⟨h, rfl⟩, ⟨w.1, rfl⟩, w.2.symm⟩
      · intro both
        obtain ⟨a', before, after, w, v, rfl⟩ := both
        obtain rfl : a = a' := Except.ok.inj (h.symm.trans w.result)
        exact ⟨v.result, by rw [w.written, v.written]⟩

/-! ### Lines of any script -/

theorem lines_bind_of_error {m : Script α} {fault : Fault} (failed : m.result = .error fault)
    (f : α → Script β) : (m >>= f).lines = m.lines := by
  rw [bind_of_error failed]
  rfl

theorem lines_bind_of_silent {m : Script α} {f : α → Script β} (silent : m.lines = [])
    (rest : ∀ a, (f a).lines = []) : (m >>= f).lines = [] := by
  cases result : m.result with
  | error fault => rw [lines_bind_of_error result, silent]
  | ok a => rw [lines_bind_of_ok result, silent, rest]; rfl

theorem lines_check (step : Except Cause α) : (check step).lines = [] := by
  cases step with
  | error cause => rfl
  | ok a => rfl

theorem lines_use (step : Except Cause α × Scope) : (use step).lines = [] := by
  rcases step with ⟨cause | a, after⟩
  · rfl
  · rfl

theorem lines_writeAll (ls : List Line) : (writeAll ls).lines = ls := by
  simp [lines, writeAll, List.filterMap_map]

theorem lines_foldlM_of_silent {κ : Type} {step : σ → κ → Script σ}
    (silent : ∀ s x, (step s x).lines = []) (xs : List κ) (s : σ) :
    (xs.foldlM step s).lines = [] := by
  induction xs generalizing s with
  | nil => rfl
  | cons x xs ih =>
      rw [List.foldlM_cons]
      exact lines_bind_of_silent (silent s x) ih

theorem lines_warnUndeclared (names : List String) : (warnUndeclared names).lines = [] := by
  induction names with
  | nil => rfl
  | cons name names ih => exact ih

/-! ### The parts of a sequence -/

@[simp] theorem writes_check {step : Except Cause α} {ls : List Line} {a : α} :
    (check step).Writes ls a ↔ ls = [] ∧ step = .ok a := by
  cases step with
  | error cause => simp [writes_iff, check, fail]
  | ok b => simp [check]

@[simp] theorem writes_check_bind {step : Except Cause α} {f : α → Script β} {ls : List Line}
    {b : β} : (check step >>= f).Writes ls b ↔ ∃ a, step = .ok a ∧ (f a).Writes ls b := by
  simp only [writes_bind, writes_check]
  constructor
  · intro h
    obtain ⟨a, before, after, ⟨rfl, ok⟩, rest, rfl⟩ := h
    exact ⟨a, ok, rest⟩
  · intro h
    obtain ⟨a, ok, rest⟩ := h
    exact ⟨a, [], ls, ⟨rfl, ok⟩, rest, rfl⟩

@[simp] theorem writes_writeAll {lines ls : List Line} {u : Unit} :
    (writeAll lines).Writes ls u ↔ ls = lines := by
  rw [writes_iff, lines_writeAll]
  exact ⟨fun h => h.2.symm, fun h => ⟨rfl, h.symm⟩⟩

@[simp] theorem writes_writeAll_bind {lines ls : List Line} {f : Unit → Script β} {b : β} :
    (writeAll lines >>= f).Writes ls b ↔ ∃ rest, (f ()).Writes rest b ∧ ls = lines ++ rest := by
  simp only [writes_bind, writes_writeAll]
  constructor
  · intro h
    obtain ⟨u, before, after, rfl, rest, same⟩ := h
    exact ⟨after, rest, same⟩
  · intro h
    obtain ⟨rest, written, same⟩ := h
    exact ⟨(), lines, rest, rfl, written, same⟩

@[simp] theorem writes_write_bind {line : Line} {ls : List Line} {f : Unit → Script β} {b : β} :
    (write line >>= f).Writes ls b ↔ ∃ rest, (f ()).Writes rest b ∧ ls = line :: rest :=
  @writes_writeAll_bind β [line] ls f b

@[simp] theorem writes_write {line : Line} {ls : List Line} {u : Unit} :
    (write line).Writes ls u ↔ ls = [line] :=
  @writes_writeAll [line] ls u

theorem writeAll_append (ls more : List Line) :
    writeAll (ls ++ more) = (writeAll ls >>= fun _ => writeAll more) := by
  rw [bind_of_ok rfl]
  simp [writeAll]

/-- What writes nothing and always ends well can be left out. -/
theorem writes_act_bind {action : Action} (silent : ∀ line, action ≠ .write line)
    {ls : List Line} {f : Unit → Script β} {b : β} :
    (act action >>= f).Writes ls b ↔ (f ()).Writes ls b := by
  have none : (act action).lines = [] := by
    cases action with
    | write line => exact absurd rfl (silent line)
    | log record => rfl
    | enter scope => rfl
    | flush => rfl
  rw [writes_bind]
  constructor
  · intro h
    obtain ⟨u, before, after, w, rest, rfl⟩ := h
    rw [← w.written, none]
    exact rest
  · intro h
    exact ⟨(), [], ls, ⟨rfl, none⟩, h, rfl⟩

@[simp] theorem writes_log_bind {level : LogLevel} {text : String} {ls : List Line}
    {f : Unit → Script β} {b : β} : (log level text >>= f).Writes ls b ↔ (f ()).Writes ls b :=
  writes_act_bind (by simp)

@[simp] theorem writes_enter_bind {scope : Scope} {ls : List Line} {f : Unit → Script β} {b : β} :
    (enter scope >>= f).Writes ls b ↔ (f ()).Writes ls b :=
  writes_act_bind (by simp)

@[simp] theorem writes_use_bind {step : Except Cause α × Scope} {f : α × Scope → Script β}
    {ls : List Line} {b : β} :
    (use step >>= f).Writes ls b ↔
      ∃ a after, step = (.ok a, after) ∧ (f (a, after)).Writes ls b := by
  rw [use_bind, writes_enter_bind, writes_check_bind]
  constructor
  · intro h
    obtain ⟨a, ok, rest⟩ := h
    exact ⟨a, step.2, Prod.ext ok rfl, rest⟩
  · intro h
    obtain ⟨a, after, rfl, rest⟩ := h
    exact ⟨a, rfl, rest⟩

@[simp] theorem writes_flush_bind {ls : List Line} {f : Unit → Script β} {b : β} :
    (flush >>= f).Writes ls b ↔ (f ()).Writes ls b :=
  writes_act_bind (by simp)

/-- A place changes neither the lines nor a good end. -/
@[simp] theorem writes_within {place : Place} {m : Script α} {ls : List Line} {a : α} :
    (m.within place).Writes ls a ↔ m.Writes ls a := by
  rw [writes_iff, writes_iff, lines_within]
  cases h : m.result with
  | error fault => simp [within, h, Except.mapError]
  | ok b => simp [within, h, Except.mapError]

/-- A run over a list is a run over its front and then one over the rest. -/
theorem writes_foldlM_append {step : σ → α → Script σ} {xs ys : List α} {s after : σ}
    {ls : List Line} :
    ((xs ++ ys).foldlM step s).Writes ls after ↔
      ∃ between front rest, (xs.foldlM step s).Writes front between ∧
        (ys.foldlM step between).Writes rest after ∧ ls = front ++ rest := by
  rw [List.foldlM_append, writes_bind]

theorem writes_foldlM_cons {step : σ → α → Script σ} {x : α} {xs : List α} {s after : σ}
    {ls : List Line} :
    ((x :: xs).foldlM step s).Writes ls after ↔
      ∃ between first rest, (step s x).Writes first between ∧
        (xs.foldlM step between).Writes rest after ∧ ls = first ++ rest := by
  rw [List.foldlM_cons, writes_bind]

/-- The part of a good run that belongs to one element, with the states around it. -/
theorem writes_foldlM_mem {step : σ → α → Script σ} {xs : List α} {s after : σ} {ls : List Line}
    (run : (xs.foldlM step s).Writes ls after) {k : Nat} (hk : k < xs.length) :
    ∃ before next front lines rest, ((xs.take k).foldlM step s).Writes front before ∧
      (step before xs[k]).Writes lines next ∧
      ((xs.drop (k + 1)).foldlM step next).Writes rest after ∧ ls = front ++ lines ++ rest := by
  rw [← List.take_append_drop k xs, List.drop_eq_getElem_cons hk, writes_foldlM_append] at run
  obtain ⟨before, front, behind, first, others, rfl⟩ := run
  rw [writes_foldlM_cons] at others
  obtain ⟨next, lines, rest, here, later, rfl⟩ := others
  exact ⟨before, next, front, lines, rest, first, here, later, by rw [List.append_assoc]⟩

/-- What every step of a run keeps is kept by the run. -/
theorem Writes.invariant {step : σ → α → Script σ} (keeps : σ → Prop)
    (one : ∀ s x after lines, keeps s → (step s x).Writes lines after → keeps after)
    {xs : List α} {s after : σ} {ls : List Line} (start : keeps s)
    (run : (xs.foldlM step s).Writes ls after) : keeps after := by
  induction xs generalizing s ls with
  | nil =>
      rw [List.foldlM_nil, writes_pure] at run
      exact run.2 ▸ start
  | cons x xs ih =>
      rw [writes_foldlM_cons] at run
      obtain ⟨between, first, rest, here, later, -⟩ := run
      exact ih (one s x between first start here) later

/-- A good run writes a block for each element, all from states that the steps keep alike. -/
theorem Writes.blocks {step : σ → α → Script σ} (keeps : σ → Prop)
    (one : ∀ s x after lines, keeps s → (step s x).Writes lines after → keeps after)
    {xs : List α} {s after : σ} {ls : List Line} (start : keeps s)
    (run : (xs.foldlM step s).Writes ls after) :
    ∃ blocks, List.Forall₂ (fun x block => ∃ before next, keeps before ∧
      (step before x).Writes block next) xs blocks ∧ ls = blocks.flatten := by
  induction xs generalizing s ls with
  | nil =>
      rw [List.foldlM_nil, writes_pure] at run
      exact ⟨[], .nil, run.1⟩
  | cons x xs ih =>
      rw [writes_foldlM_cons] at run
      obtain ⟨between, first, rest, here, later, rfl⟩ := run
      obtain ⟨blocks, each, rfl⟩ := ih (one s x between first start here) later
      exact ⟨first :: blocks, .cons ⟨s, between, start, here⟩ each, rfl⟩

end Script

end CircuitNetlist
