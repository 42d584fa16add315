import CircuitNetlist.Proofs.ParameterOrder

/-!
# Histories of a parameter table

A table is used by calls that store, take out and rename, in any order and whether they find what
they ask for or not. What one call does is said by rules on the entries in order: an entry that is
stored again keeps its place, one that is stored in front or behind is put there, and a renamed
entry keeps its place and its text. From the rules follows what every call keeps: names are
distinct, and the entries of other names stand as they did. What is found under a name is read off
the history: the last text that was stored under it, if nothing has been removed under it since.
-/
namespace CircuitNetlist.ParamTable

/-- A call on a table. -/
inductive Call where
  | set (name : String) (text : ValueText)
  | setFirst (name : String) (text : ValueText)
  | pop (name : String)
  | popMany (names : List String)
  | rename (source target : String)
deriving DecidableEq, Repr

/-- The names that a call is about. -/
def Call.names : Call → List String
  | .set name _ | .setFirst name _ | .pop name => [name]
  | .popMany names => names
  | .rename source target => [source, target]

/-- What a call gives back, and the table behind it. -/
def perform (t : ParamTable) : Call → Except Cause (List ValueText) × ParamTable
  | .set name text => (.ok [], t.set name text)
  | .setFirst name text => (.ok [], t.setFirst name text)
  | .pop name =>
    match t.pop name with
    | .ok (text, rest) => (.ok [text], rest)
    | .error cause => (.error cause, t)
  | .popMany names => t.popMany names
  | .rename source target => (.ok [], t.rename source target)

/-- The table behind a call. -/
def after (t : ParamTable) (c : Call) : ParamTable :=
  (t.perform c).2

/-- The table behind calls, one after the other. -/
def run (t : ParamTable) (calls : List Call) : ParamTable :=
  calls.foldl after t

/-- A rename is in range of the table; any other call can be made. -/
def Call.Fits (t : ParamTable) : Call → Prop
  | .rename source target => t.RenameFits source target
  | .set _ _ | .setFirst _ _ | .pop _ | .popMany _ => True

/-- Every rename among the calls is in range of the table that it meets. -/
def RenamesFit (t : ParamTable) : List Call → Prop
  | [] => True
  | c :: calls => c.Fits t ∧ (t.after c).RenamesFit calls

instance (t : ParamTable) (source target : String) : Decidable (t.RenameFits source target) :=
  inferInstanceAs (Decidable (∀ index ∈ t.indexOf? source, index ≤ (t.erase source).size ∧
    ((t.erase source).contains target → index < (t.erase source).size)))

instance (t : ParamTable) : (c : Call) → Decidable (c.Fits t)
  | .rename source target => inferInstanceAs (Decidable (t.RenameFits source target))
  | .set _ _ | .setFirst _ _ | .pop _ | .popMany _ => isTrue trivial

instance decidableRenamesFit (t : ParamTable) : (calls : List Call) → Decidable (t.RenamesFit calls)
  | [] => isTrue trivial
  | c :: calls =>
    have := decidableRenamesFit (t.after c) calls
    inferInstanceAs (Decidable (c.Fits t ∧ (t.after c).RenamesFit calls))

/-- What calls do to the entries in order, rule by rule. -/
inductive Performs : ParamTable → Call → Except Cause (List ValueText) → ParamTable → Prop
  /-- A name that is there keeps its place. -/
  | replaced {t : ParamTable} {front back : List (String × ValueText)} {name : String}
      {old text : ValueText} : t.entries = front ++ (name, old) :: back →
      Performs t (.set name text) (.ok []) ⟨front ++ (name, text) :: back⟩
  | added {t : ParamTable} {name : String} {text : ValueText} : name ∉ t.names →
      Performs t (.set name text) (.ok []) ⟨t.entries ++ [(name, text)]⟩
  /-- The name stands in front, wherever it stood before. -/
  | first {t : ParamTable} {name : String} {text : ValueText} :
      Performs t (.setFirst name text) (.ok []) ⟨(name, text) :: t.entries.filter (·.1 != name)⟩
  | popped {t : ParamTable} {front back : List (String × ValueText)} {name : String}
      {text : ValueText} : t.entries = front ++ (name, text) :: back →
      Performs t (.pop name) (.ok [text]) ⟨front ++ back⟩
  | missing {t : ParamTable} {name : String} : name ∉ t.names →
      Performs t (.pop name) (.error (.missingParameter name)) t
  | done {t : ParamTable} : Performs t (.popMany []) (.ok []) t
  /-- One is taken out, and then the others, of which one may be missing. -/
  | next {t between rest : ParamTable} {name : String} {names : List String} {text : ValueText}
      {reply : Except Cause (List ValueText)} : Performs t (.pop name) (.ok [text]) between →
      Performs between (.popMany names) reply rest →
      Performs t (.popMany (name :: names)) (reply.map (text :: ·)) rest
  | stopped {t : ParamTable} {name : String} {names : List String} {cause : Cause} :
      Performs t (.pop name) (.error cause) t →
      Performs t (.popMany (name :: names)) (.error cause) t
  /-- As many entries stand in front as before; an entry that had the new name is gone from wherever
  it stood. -/
  | renamed {t : ParamTable} {front back front' back' : List (String × ValueText)}
      {source target : String} {text : ValueText} : t.entries = front ++ (source, text) :: back →
      front'.length = front.length →
      front' ++ back' = (front ++ back).filter (·.1 != target) →
      Performs t (.rename source target) (.ok []) ⟨front' ++ (target, text) :: back'⟩
  | unknown {t : ParamTable} {source target : String} : source ∉ t.names →
      Performs t (.rename source target) (.ok []) t

/-! ### One call -/

section Entries
variable {t : ParamTable} {name : String} {text : ValueText}

/-- An entry that is found stands somewhere. -/
theorem exists_split_of_get? (found : t.get? name = some text) :
    ∃ front back, t.entries = front ++ (name, text) :: back := by
  obtain ⟨front, back, split, -⟩ := List.lookup_eq_some_iff.mp found
  exact ⟨front, back, split⟩

theorem names_of_split {front back : List (String × ValueText)}
    (split : t.entries = front ++ (name, text) :: back) :
    t.names = front.map (·.1) ++ name :: back.map (·.1) := by
  rw [ParamTable.names, split, List.map_append, List.map_cons]

theorem nodup_iff_of_split {front back : List (String × ValueText)}
    (split : t.entries = front ++ (name, text) :: back) :
    t.names.Nodup ↔ name ∉ (front ++ back).map (·.1) ∧ ((front ++ back).map (·.1)).Nodup := by
  rw [names_of_split split, List.nodup_middle, List.nodup_cons, ← List.map_append]

/-- Among distinct names, no other entry has the name of one. -/
theorem others_of_split {front back : List (String × ValueText)}
    (split : t.entries = front ++ (name, text) :: back) (distinct : t.names.Nodup) :
    ∀ entry ∈ front ++ back, entry.1 ≠ name := by
  intro entry mem same
  exact ((nodup_iff_of_split split).mp distinct).1 (same ▸ List.mem_map_of_mem mem)

theorem get?_of_split {front back : List (String × ValueText)}
    (split : t.entries = front ++ (name, text) :: back) (distinct : t.names.Nodup) :
    t.get? name = some text := by
  have here : (name, text) ∈ t.entries := by simp [split]
  exact get?_of_mem distinct here

theorem indexOf?_of_entries {front back : List (String × ValueText)}
    (split : t.entries = front ++ (name, text) :: back) (distinct : t.names.Nodup) :
    t.indexOf? name = some front.length := by
  have names := names_of_split split
  rw [indexOf?_of_split names (not_mem_of_split names distinct).1, List.length_map]

theorem erase_of_split {front back : List (String × ValueText)}
    (split : t.entries = front ++ (name, text) :: back) (distinct : t.names.Nodup) :
    t.erase name = ⟨front ++ back⟩ := by
  have others := others_of_split split distinct
  have kept : (front ++ back).filter (·.1 != name) = front ++ back := by
    rw [List.filter_eq_self]
    intro entry mem
    exact bne_iff_ne.mpr (others entry mem)
  rw [erase, split, ← kept, List.filter_append, List.filter_append, List.filter_cons,
    bne_self_eq_false, if_neg Bool.false_ne_true]

theorem set_of_split {front back : List (String × ValueText)} {old : ValueText}
    (split : t.entries = front ++ (name, old) :: back) (distinct : t.names.Nodup) :
    t.set name text = ⟨front ++ (name, text) :: back⟩ := by
  have others := others_of_split split distinct
  rw [List.forall_mem_append] at others
  have kept : ∀ {entries : List (String × ValueText)}, (∀ entry ∈ entries, entry.1 ≠ name) →
      entries.map (fun entry => if entry.1 = name then (name, text) else entry) = entries := by
    intro entries other
    have same : entries.map (fun entry => if entry.1 = name then (name, text) else entry)
        = entries.map id := by
      apply List.map_congr_left
      intro entry mem
      exact if_neg (other entry mem)
    rw [same, List.map_id]
  have known : t.contains name := by
    rw [contains_iff, ParamTable.names, split]
    simp
  rw [set, if_pos known, split, List.map_append, List.map_cons, kept others.1, kept others.2,
    if_pos rfl]

theorem perform_pop_of_found (found : t.get? name = some text) :
    t.perform (.pop name) = (.ok [text], t.erase name) := by
  simp only [perform, pop, found]

theorem perform_pop_of_missing (missing : t.get? name = none) :
    t.perform (.pop name) = (.error (.missingParameter name), t) := by
  simp only [perform, pop, missing]

theorem popMany_cons_of_found {names : List String} (found : t.get? name = some text) :
    t.popMany (name :: names)
      = (((t.erase name).popMany names).1.map (text :: ·), ((t.erase name).popMany names).2) := by
  rw [popMany, pop, found]
  dsimp only
  rcases (t.erase name).popMany names with ⟨_ | texts, rest⟩ <;> rfl

theorem popMany_cons_of_missing {names : List String} (missing : t.get? name = none) :
    t.popMany (name :: names) = (.error (.missingParameter name), t) := by
  rw [popMany, pop, missing]

theorem rename_of_missing {source : String} (missing : t.get? source = none) (target : String) :
    t.rename source target = t := by
  rw [rename, missing]
  cases t.indexOf? source <;> rfl

/-- A renamed entry is put back into what is left of the others. -/
theorem rename_of_split {front back : List (String × ValueText)} {target : String}
    (split : t.entries = front ++ (name, text) :: back) (distinct : t.names.Nodup) :
    t.rename name target = (mk (front ++ back)).insertAt front.length target text := by
  rw [rename, indexOf?_of_entries split distinct, get?_of_split split distinct,
    erase_of_split split distinct]

theorem size_erase (distinct : t.names.Nodup) (name : String) :
    (t.erase name).size = if name ∈ t.names then t.size - 1 else t.size := by
  have counted : ∀ t : ParamTable, t.size = t.names.length := by
    intro t
    rw [size, ParamTable.names, List.length_map]
  rw [counted, counted, names_erase, ← distinct.erase_eq_filter, List.length_erase]

/-- Where a rename is in range, as many of the other entries are left as stood in front of the
entry. -/
theorem room_of_renameFits {front back : List (String × ValueText)} {target : String}
    (split : t.entries = front ++ (name, text) :: back) (distinct : t.names.Nodup)
    (fits : t.RenameFits name target) :
    front.length ≤ ((front ++ back).filter (·.1 != target)).length := by
  obtain ⟨inside, before⟩ := fits front.length (indexOf?_of_entries split distinct)
  have left := size_erase (nodup_erase distinct name) target
  rw [erase_of_split split distinct] at inside before left
  change front.length ≤ ((mk (front ++ back)).erase target).size
  rw [left]
  by_cases known : target ∈ (mk (front ++ back)).names
  · have room := before ((contains_iff _ target).mpr known)
    rw [if_pos known]
    omega
  · rw [if_neg known]
    exact inside

end Entries

section Rules
variable {t t' : ParamTable} {c : Call} {reply : Except Cause (List ValueText)}

theorem performs_pop (distinct : t.names.Nodup) (name : String) :
    Performs t (.pop name) (t.perform (.pop name)).1 (t.perform (.pop name)).2 := by
  cases found : t.get? name with
  | none =>
      rw [perform_pop_of_missing found]
      exact .missing ((t.get?_eq_none_iff name).mp found)
  | some text =>
      obtain ⟨front, back, split⟩ := exists_split_of_get? found
      rw [perform_pop_of_found found, erase_of_split split distinct]
      exact .popped split

theorem performs_popMany (distinct : t.names.Nodup) (names : List String) :
    Performs t (.popMany names) (t.popMany names).1 (t.popMany names).2 := by
  induction names generalizing t with
  | nil => exact .done
  | cons name names ih =>
      have one := performs_pop distinct name
      cases found : t.get? name with
      | none =>
          rw [perform_pop_of_missing found] at one
          rw [popMany_cons_of_missing found]
          exact .stopped one
      | some text =>
          rw [perform_pop_of_found found] at one
          rw [popMany_cons_of_found found]
          exact .next one (ih (nodup_erase distinct name))

/-- A call does to distinct names what its rule says, a rename if it is in range. -/
theorem performs_perform (distinct : t.names.Nodup) (fits : c.Fits t) :
    Performs t c (t.perform c).1 (t.perform c).2 := by
  cases c with
  | set name text =>
      change Performs t _ (.ok []) (t.set name text)
      cases found : t.get? name with
      | none =>
          have fresh := (t.get?_eq_none_iff name).mp found
          rw [set, if_neg (mt (t.contains_iff name).mp fresh)]
          exact .added fresh
      | some old =>
          obtain ⟨front, back, split⟩ := exists_split_of_get? found
          rw [set_of_split split distinct]
          exact .replaced split
  | setFirst name text => exact .first
  | pop name => exact performs_pop distinct name
  | popMany names => exact performs_popMany distinct names
  | rename source target =>
      change Performs t _ (.ok []) (t.rename source target)
      cases found : t.get? source with
      | none =>
          have unknown := (t.get?_eq_none_iff source).mp found
          rw [rename_of_missing found]
          exact .unknown unknown
      | some text =>
          obtain ⟨front, back, split⟩ := exists_split_of_get? found
          have room := room_of_renameFits split distinct fits
          rw [rename_of_split split distinct]
          exact .renamed split (List.length_take_of_le room) (List.take_append_drop _ _)

/-- The rules say nothing else. -/
theorem Performs.result (h : Performs t c reply t') (distinct : t.names.Nodup) :
    t.perform c = (reply, t') := by
  induction h with
  | @replaced t front back name old text split => rw [perform, set_of_split split distinct]
  | @added t name text fresh => rw [perform, set, if_neg (mt (t.contains_iff name).mp fresh)]
  | first => rfl
  | @popped t front back name text split =>
      rw [perform_pop_of_found (get?_of_split split distinct), erase_of_split split distinct]
  | @missing t name absent => exact perform_pop_of_missing ((t.get?_eq_none_iff name).mpr absent)
  | done => rfl
  | @next t between rest name names text reply one later ihOne ihLater =>
      have first := ihOne distinct
      cases found : t.get? name with
      | none =>
          rw [perform_pop_of_missing found] at first
          cases first
      | some other =>
          rw [perform_pop_of_found found] at first
          cases first
          have others := ihLater (nodup_erase distinct name)
          rw [perform] at others ⊢
          rw [popMany_cons_of_found found, others]
  | @stopped t name names cause one ih =>
      have first := ih distinct
      cases found : t.get? name with
      | none =>
          rw [perform_pop_of_missing found] at first
          cases first
          exact popMany_cons_of_missing found
      | some text =>
          rw [perform_pop_of_found found] at first
          cases first
  | @renamed t front back front' back' source target text split counted left =>
      rw [perform, rename_of_split split distinct, insertAt, erase, ← left, ← counted,
        List.take_left, List.drop_left]
  | @unknown t source target absent =>
      rw [perform, rename_of_missing ((t.get?_eq_none_iff source).mpr absent)]

theorem filter_middle {names : List String} {name : String} (mem : name ∈ names) (text : ValueText)
    (front back : List (String × ValueText)) :
    (front ++ (name, text) :: back).filter (·.1 ∉ names)
      = (front ++ back).filter (·.1 ∉ names) := by
  simp [List.filter_append, mem]

theorem filter_others {names : List String} {name : String} (mem : name ∈ names)
    (entries : List (String × ValueText)) :
    (entries.filter (·.1 != name)).filter (·.1 ∉ names) = entries.filter (·.1 ∉ names) := by
  rw [List.filter_filter]
  apply List.filter_congr
  intro entry _
  by_cases same : entry.1 = name
  · simp [same, mem]
  · simp [same]

/-- The entries of other names are the same ones, in the same order. -/
theorem Performs.others (h : Performs t c reply t') {names : List String}
    (about : ∀ name ∈ c.names, name ∈ names) :
    t'.entries.filter (·.1 ∉ names) = t.entries.filter (·.1 ∉ names) := by
  -- taking several out is about fewer names at each step, so any list that has them will do
  induction h with
  | @replaced t front back name old text split =>
      have mem := about name List.mem_cons_self
      rw [split, filter_middle mem, filter_middle mem]
  | @added t name text fresh =>
      have mem := about name List.mem_cons_self
      rw [filter_middle mem, List.append_nil]
  | @first t name text =>
      have mem := about name List.mem_cons_self
      have front := filter_middle mem text [] (t.entries.filter (·.1 != name))
      exact front.trans (filter_others mem t.entries)
  | @popped t front back name text split =>
      rw [split, filter_middle (about name List.mem_cons_self)]
  | missing _ => rfl
  | done => rfl
  | @next t between rest name names' text reply one later ihOne ihLater =>
      have mine : ∀ other ∈ (Call.pop name).names, other ∈ names := by
        intro other mem
        obtain rfl := List.mem_singleton.mp mem
        exact about other List.mem_cons_self
      have others : ∀ other ∈ (Call.popMany names').names, other ∈ names := by
        intro other mem
        exact about other (List.mem_cons_of_mem name mem)
      rw [ihLater others, ihOne mine]
  | stopped _ _ => rfl
  | @renamed t front back front' back' source target text split counted left =>
      have old := about source List.mem_cons_self
      have new := about target (List.mem_cons_of_mem source List.mem_cons_self)
      rw [split, filter_middle old, filter_middle new, left, filter_others new]
  | unknown _ => rfl

theorem not_mem_others (name : String) (entries : List (String × ValueText)) :
    name ∉ (entries.filter (·.1 != name)).map (·.1) := by
  intro mem
  obtain ⟨entry, there, same⟩ := List.mem_map.mp mem
  exact bne_iff_ne.mp (List.mem_filter.mp there).2 same

/-- Names stay distinct. -/
theorem Performs.nodup (h : Performs t c reply t') (distinct : t.names.Nodup) :
    t'.names.Nodup := by
  induction h with
  | replaced split => exact (nodup_iff_of_split rfl).mpr ((nodup_iff_of_split split).mp distinct)
  | @added t name text fresh =>
      rw [nodup_iff_of_split rfl, List.append_nil]
      exact ⟨fresh, distinct⟩
  | @first t name text =>
      have kept : ((t.entries.filter (·.1 != name)).map (·.1)).Nodup :=
        distinct.sublist (List.filter_sublist.map _)
      exact List.nodup_cons.mpr ⟨not_mem_others name t.entries, kept⟩
  | popped split => exact ((nodup_iff_of_split split).mp distinct).2
  | missing _ => exact distinct
  | done => exact distinct
  | next _ _ one others => exact others (one distinct)
  | stopped _ _ => exact distinct
  | @renamed t front back front' back' source target text split counted left =>
      have others := ((nodup_iff_of_split split).mp distinct).2
      rw [nodup_iff_of_split rfl, left]
      exact ⟨not_mem_others target _, others.sublist (List.filter_sublist.map _)⟩
  | unknown _ => exact distinct

end Rules

/-! ### Whole histories -/

section Runs
variable {t : ParamTable} {c : Call} {calls : List Call}

theorem run_append (calls more : List Call) : t.run (calls ++ more) = (t.run calls).run more :=
  List.foldl_append

/-- The rules hold of the last call of a run that starts with distinct names, whatever was called
before. -/
theorem performs_run (distinct : t.names.Nodup) (fit : t.RenamesFit (calls ++ [c])) :
    (t.run calls).names.Nodup ∧
      Performs (t.run calls) c ((t.run calls).perform c).1 ((t.run calls).perform c).2 := by
  induction calls generalizing t with
  | nil => exact ⟨distinct, performs_perform distinct fit.1⟩
  | cons call calls ih =>
      obtain ⟨first, others⟩ := fit
      exact ih ((performs_perform distinct first).nodup distinct) others

end Runs

/-! ### What is found -/

/-- What has been done under which name, the last first: a text has been stored, or what was there
has been removed. -/
abbrev Changes := List (String × Option ValueText)

/-- What the last change of a name has left there. -/
def Changes.found (changes : Changes) (name : String) : Option ValueText :=
  (changes.lookup name).join

/-- Names are removed up to the first one under which nothing is found. -/
def Changes.removeAll (changes : Changes) : List String → Changes
  | [] => changes
  | name :: names =>
    if (changes.found name).isSome then Changes.removeAll ((name, none) :: changes) names
    else changes

/-- One more call. A rename removes the old name and stores what was found there under the new
one. -/
def Changes.add (changes : Changes) : Call → Changes
  | .set name text | .setFirst name text => (name, some text) :: changes
  | .pop name => (name, none) :: changes
  | .popMany names => changes.removeAll names
  | .rename source target =>
    match changes.found source with
    | some text => (target, some text) :: (source, none) :: changes
    | none => changes

/-- The changes that have led to a table behind calls: its entries at the start count as stored. -/
def history (t : ParamTable) (calls : List Call) : Changes :=
  calls.foldl Changes.add (t.entries.map fun entry => (entry.1, some entry.2))

section Found
variable {t : ParamTable} {changes : Changes}

theorem Changes.found_cons (change : String × Option ValueText) (name : String) :
    Changes.found (change :: changes) name
      = if name = change.1 then change.2 else changes.found name := by
  obtain ⟨key, value⟩ := change
  by_cases same : name = key
  · simp [Changes.found, same]
  · simp [Changes.found, List.lookup_cons, beq_false_of_ne same, same]

theorem Changes.found_eq_some_iff {name : String} {text : ValueText} :
    changes.found name = some text ↔
      ∃ later earlier, changes = later ++ (name, some text) :: earlier ∧
        ∀ change ∈ later, change.1 ≠ name := by
  rw [Changes.found, Option.join_eq_some_iff, List.lookup_eq_some_iff]
  simp only [bne_iff_ne, ne_comm]

theorem found_entries (name : String) :
    Changes.found (t.entries.map fun entry => (entry.1, some entry.2)) name = t.get? name := by
  obtain ⟨entries⟩ := t
  induction entries with
  | nil => rfl
  | cons entry entries ih => rw [List.map_cons, Changes.found_cons, get?_cons, ih]

theorem get?_popMany (agree : ∀ name, t.get? name = changes.found name) (names : List String)
    (name : String) : (t.popMany names).2.get? name = (changes.removeAll names).found name := by
  induction names generalizing t changes with
  | nil => exact agree name
  | cons taken names ih =>
      rw [Changes.removeAll]
      cases found : t.get? taken with
      | none =>
          rw [popMany_cons_of_missing found, ← agree, found]
          exact agree name
      | some text =>
          rw [popMany_cons_of_found found, ← agree, found, Option.isSome_some, if_pos rfl]
          apply ih
          intro other
          rw [get?_erase, Changes.found_cons, agree]

/-- A call does to what is found what it adds to the changes. -/
theorem get?_after (agree : ∀ name, t.get? name = changes.found name) (c : Call) (name : String) :
    (t.after c).get? name = (changes.add c).found name := by
  cases c with
  | set stored text =>
      change (t.set stored text).get? name = Changes.found ((stored, some text) :: changes) name
      rw [get?_set, Changes.found_cons, agree]
  | setFirst stored text =>
      change (t.insertAt 0 stored text).get? name
        = Changes.found ((stored, some text) :: changes) name
      rw [get?_insertAt, Changes.found_cons, agree]
  | pop taken =>
      change _ = Changes.found ((taken, none) :: changes) name
      rw [Changes.found_cons, ← agree]
      cases found : t.get? taken with
      | none =>
          rw [after, perform_pop_of_missing found]
          by_cases same : name = taken
          · rw [if_pos same, same, found]
          · rw [if_neg same]
      | some text =>
          rw [after, perform_pop_of_found found]
          exact get?_erase t taken name
  | popMany names => exact get?_popMany agree names name
  | rename source target =>
      change (t.rename source target).get? name = _
      rw [Changes.add, ← agree]
      cases found : t.get? source with
      | none =>
          rw [rename_of_missing found]
          exact agree name
      | some text =>
          rw [get?_rename found, Changes.found_cons, Changes.found_cons, agree]

/-- What is found behind calls is what the last change has left. -/
theorem get?_run (agree : ∀ name, t.get? name = changes.found name) (calls : List Call)
    (name : String) :
    (t.run calls).get? name = Changes.found (calls.foldl Changes.add changes) name := by
  induction calls generalizing t changes with
  | nil => exact agree name
  | cons c calls ih => exact ih (get?_after agree c)

theorem get?_run_eq_some_iff (calls : List Call) (name : String) (text : ValueText) :
    (t.run calls).get? name = some text ↔
      ∃ later earlier, t.history calls = later ++ (name, some text) :: earlier ∧
        ∀ change ∈ later, change.1 ≠ name := by
  rw [get?_run (fun name => (found_entries name).symm) calls name, Changes.found_eq_some_iff]
  rfl

end Found

/-- Behind any calls whose renames are in range, one more call does what its rule says and nothing
else; it keeps the names distinct, and the entries of all other names as they were, in their order.
What is found under a name then is the text that was stored under it last and has not been removed
since. -/
theorem calls_follow_rules {start : ParamTable} (distinct : start.names.Nodup) {calls : List Call}
    {c : Call} (fit : start.RenamesFit (calls ++ [c])) :
    let t := start.run calls
    let t' := start.run (calls ++ [c])
    (∀ reply next, Performs t c reply next ↔ t.perform c = (reply, next)) ∧
      t' = (t.perform c).2 ∧ t'.names.Nodup ∧
      t'.entries.filter (·.1 ∉ c.names) = t.entries.filter (·.1 ∉ c.names) ∧
      ∀ name text, t'.get? name = some text ↔
        ∃ later earlier, start.history (calls ++ [c]) = later ++ (name, some text) :: earlier ∧
          ∀ change ∈ later, change.1 ≠ name := by
  intro t t'
  obtain ⟨before, rule⟩ := performs_run distinct fit
  have last : t' = (t.perform c).2 := run_append calls [c]
  refine ⟨?_, last, ?_, ?_, get?_run_eq_some_iff (calls ++ [c])⟩
  · intro reply next
    constructor
    · intro other
      exact other.result before
    · intro performed
      rwa [performed] at rule
  · rw [last]
    exact rule.nodup before
  · rw [last]
    exact rule.others fun _ mem => mem

/-- Calls behind which a name stands in front of an entry that is about to get it. -/
def crowdedCalls : List Call :=
  [.set "a" { text := "1" }, .set "b" { text := "2" }, .set "c" { text := "3" },
    .rename "b" "bee", .set "d" { text := "5" }, .setFirst "c" { text := "4" },
    .popMany ["d", "zzz", "a"], .set "d" { text := "6" }]

/-- The third of four entries takes the name of the first one: that one is gone, and the entry is
the third of those that are left. -/
theorem calls_follow_rules_crowded :
    empty.names.Nodup ∧ empty.RenamesFit (crowdedCalls ++ [.rename "bee" "c"]) ∧
      let t' := empty.run (crowdedCalls ++ [.rename "bee" "c"])
      t'.names = ["a", "d", "c"] ∧ t'.get? "c" = some { text := "2" } ∧
        t'.entries.filter (·.1 ∉ ["bee", "c"])
          = [("a", { text := "1" }), ("d", { text := "6" })] := by
  have distinct : empty.names.Nodup := List.nodup_nil
  have fit : empty.RenamesFit (crowdedCalls ++ [.rename "bee" "c"]) := by decide
  obtain ⟨-, -, -, others, found⟩ := calls_follow_rules distinct fit
  refine ⟨distinct, fit, rfl, (found "c" _).mpr ⟨[], _, rfl, by simp⟩, others⟩

end CircuitNetlist.ParamTable
