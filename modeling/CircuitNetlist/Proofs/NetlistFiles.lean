import CircuitNetlist.Proofs.BlamedPlaces
import CircuitNetlist.Session.File

/-!
# Files hold netlists

What has been written into an open file is in the file as far as it has left the buffer, and in the
buffer behind that. So a file that is closed holds all of it, however large the buffer is and
wherever the write has stopped. A package that is written well leaves exactly its netlist, one that
fails leaves no file, and a file that cannot be opened is not touched.
-/
namespace CircuitNetlist

/-! ### Contents -/

namespace Disk
variable (disk : Disk) (path : String)

theorem content?_remove (other : String) :
    (disk.remove path).content? other = if other = path then none else disk.content? other := by
  unfold content? remove
  dsimp only
  induction disk.files with
  | nil => simp
  | cons file files ih =>
      by_cases mine : file.1 = path
      · rw [List.filter_cons_of_neg (by simpa using mine), ih, List.lookup_cons]
        by_cases same : other = path
        · rw [if_pos same, if_pos same]
        · rw [if_neg same, if_neg same, beq_false_of_ne (mine ▸ same)]
      · rw [List.filter_cons_of_pos (by simpa using mine), List.lookup_cons, List.lookup_cons, ih]
        by_cases here : other = file.1
        · have another : other ≠ path := here ▸ mine
          rw [beq_iff_eq.mpr here, if_neg another, if_neg another]
        · rw [beq_false_of_ne here]

theorem content?_put (content : ByteArray) (other : String) :
    (disk.put path content).content? other
      = if other = path then some content else disk.content? other := by
  have rest := disk.content?_remove path other
  unfold content? put at *
  rw [List.lookup_cons]
  by_cases same : other = path
  · rw [if_pos same, same, beq_self_eq_true]
  · rw [if_neg same] at rest
    rw [if_neg same, beq_false_of_ne same, ← rest]

theorem remove_put (content : ByteArray) :
    (disk.put path content).remove path = disk.remove path := by
  simp [remove, put]

theorem put_put (first content : ByteArray) :
    (disk.put path first).put path content = disk.put path content := by
  have rest := congrArg files (disk.remove_put path first)
  unfold put at *
  rw [rest]

theorem append_put (content bytes : ByteArray) :
    (disk.put path content).append path bytes = disk.put path (content ++ bytes) := by
  rw [append, content?_put, if_pos rfl, Option.getD_some, put_put]

/-- A disk that differs from another in one file at most. -/
structure AgreesApartFrom (disk : Disk) (path : String) (after : Disk) : Prop where
  folders : after.folders = disk.folders
  closed : after.closed = disk.closed
  others : ∀ other, other ≠ path → after.content? other = disk.content? other

theorem agrees_put (content : ByteArray) :
    disk.AgreesApartFrom path (disk.put path content) := by
  refine ⟨rfl, rfl, fun other another => ?_⟩
  rw [content?_put, if_neg another]

theorem agrees_remove :
    disk.AgreesApartFrom path (disk.remove path) := by
  refine ⟨rfl, rfl, fun other another => ?_⟩
  rw [content?_remove, if_neg another]

/-- A file that is opened is empty, and is all that changes. -/
theorem eq_put_of_create {disk opened : Disk} {path : String}
    (created : disk.create path = .ok opened) : opened = disk.put path .empty := by
  unfold create at created
  split at created
  · cases created
  · split at created
    · exact (Except.ok.inj created).symm
    · cases created

end Disk

/-! ### Open files -/

namespace OpenFile

/-- All that has been written into the file is this content, of which some has left the buffer. -/
structure Holds (file : OpenFile) (disk : Disk) (path : String) (content : ByteArray) : Prop where
  path_eq : file.path = path
  split : ∃ arrived, file.disk = disk.put path arrived ∧ arrived ++ file.buffer = content

variable {file : OpenFile} {disk : Disk} {path : String} {content : ByteArray}

theorem Holds.spill (h : file.Holds disk path content) :
    file.spill.Holds disk path content ∧ file.spill.disk = disk.put path content
      ∧ file.spill.buffer = .empty := by
  obtain ⟨rfl, arrived, stored, rfl⟩ := h
  have all : file.spill.disk = disk.put file.path (arrived ++ file.buffer) := by
    change file.disk.append file.path file.buffer = _
    rw [stored, Disk.append_put]
  exact ⟨⟨rfl, _, all, ByteArray.append_empty⟩, all, rfl⟩

/-- What goes past the buffer stays in order if the buffer is empty. -/
theorem Holds.take (h : file.Holds disk path content) {bytes : ByteArray}
    (past : file.capacity ≤ bytes.size → file.buffer = .empty) :
    (if file.capacity ≤ bytes.size
      then { file with disk := file.disk.append file.path bytes }
      else { file with buffer := file.buffer ++ bytes }).Holds disk path (content ++ bytes) := by
  obtain ⟨rfl, arrived, there, rfl⟩ := h
  split
  case isTrue large =>
    refine ⟨rfl, arrived ++ bytes, ?_, ?_⟩
    · change file.disk.append file.path bytes = _
      rw [there, Disk.append_put]
    · change arrived ++ bytes ++ file.buffer = _
      rw [past large, ByteArray.append_empty, ByteArray.append_empty]
  case isFalse small => exact ⟨rfl, arrived, there, ByteArray.append_assoc.symm⟩

theorem Holds.write (h : file.Holds disk path content) (bytes : ByteArray) :
    (file.write bytes).Holds disk path (content ++ bytes) := by
  unfold OpenFile.write
  dsimp only
  by_cases full : file.capacity < file.buffer.size + bytes.size
  · rw [if_pos full]
    obtain ⟨spilled, -, empty⟩ := h.spill
    exact spilled.take fun _ => empty
  · rw [if_neg full]
    apply h.take
    intro large
    -- what is as large as the buffer fits into it only where the buffer is empty
    rw [← ByteArray.size_eq_zero_iff]
    omega

/-- Bytes that are written in two goes. -/
theorem toUTF8_join_append (content : ByteArray) (texts more : List String) :
    content ++ (String.join (texts ++ more)).toUTF8
      = content ++ (String.join texts).toUTF8 ++ (String.join more).toUTF8 := by
  simp [ByteArray.append_assoc]

theorem Holds.perform (h : file.Holds disk path content) (indent : String) (event : Event) :
    (file.perform indent event.action).Holds disk path
      (content ++ (String.join (event.line?.toList.map (Line.render indent))).toUTF8) := by
  have nothing : content ++ (String.join []).toUTF8 = content := by simp
  obtain ⟨places, action⟩ := event
  cases action with
  | write line =>
      have one : String.join [line.render indent] = line.render indent := by simp
      change (file.write _).Holds disk path (content ++ (String.join [line.render indent]).toUTF8)
      rw [one]
      exact h.write _
  | flush =>
      change file.spill.Holds disk path (content ++ (String.join []).toUTF8)
      rw [nothing]
      exact h.spill.1
  | log record | enter scope =>
      change file.Holds disk path (content ++ (String.join []).toUTF8)
      rw [nothing]
      exact h

theorem Holds.play (h : file.Holds disk path content) (indent : String) (events : List Event) :
    (file.play indent events).Holds disk path (content
      ++ (String.join ((events.filterMap Event.line?).map (Line.render indent))).toUTF8) := by
  induction events generalizing file content with
  | nil => simpa [OpenFile.play] using h
  | cons event events ih =>
      have lines : (event :: events).filterMap Event.line?
          = event.line?.toList ++ events.filterMap Event.line? := by
        cases here : event.line? <;> simp [here]
      rw [lines, List.map_append, toUTF8_join_append]
      exact ih (h.perform indent event)

/-- A file that is closed holds all that has been written. -/
theorem Holds.close (h : file.Holds disk path content) : file.close = disk.put path content :=
  h.spill.2.1

end OpenFile

/-! ### Packages -/

namespace Package
variable {f : Format} {p : Package}

theorem netlist_of_unwritten {cause : Cause} (unwritten : Dialect.ofFormat f = .error cause) :
    p.netlist f = .error (.plain cause) := by
  unfold netlist Format.dialect
  rw [unwritten]
  rfl

theorem netlist_of_dialect {d : Dialect} (dialect : Dialect.ofFormat f = .ok d) :
    p.netlist f = (p.script d {} .empty).textIfOk ({} : Options).indent := by
  unfold netlist Format.dialect
  rw [dialect]
  rfl

/-- A file takes everything, so how the write ends is how the netlist does. -/
theorem result_writeInto (p : Package) (f : Format) (file : OpenFile) :
    (p.writeInto f file).1 = (p.netlist f).map fun _ => () := by
  have unlimited : ({} : Sink).Unlimited := ⟨rfl, rfl⟩
  unfold writeInto Session.open?
  cases dialect : Dialect.ofFormat f with
  | error cause =>
      rw [netlist_of_unwritten dialect]
      rfl
  | ok d =>
      have ended := (Session.run_of_unlimited (s := { dialect := d }) unlimited
        (p.script d {} .empty)).1
      rw [netlist_of_dialect dialect]
      change (Session.run { dialect := d } (p.script d {} .empty)).1.map (fun _ => ()) = _
      rw [ended, Script.textIfOk]
      cases (p.script d {} .empty).result with
      | error fault => rfl
      | ok scope => rfl

/-- Wherever the write stops, the file has some of the lines, and a netlist as a whole. -/
theorem holds_writeInto {file : OpenFile} {disk : Disk} {path : String}
    (emptied : file.Holds disk path .empty) (p : Package) (f : Format) :
    ∃ content, (p.writeInto f file).2.2.Holds disk path content ∧
      ∀ text, p.netlist f = .ok text → content = text.toUTF8 := by
  unfold writeInto Session.open?
  cases dialect : Dialect.ofFormat f with
  | error cause =>
      refine ⟨_, emptied, ?_⟩
      rw [netlist_of_unwritten dialect]
      rintro text ⟨⟩
  | ok d =>
      refine ⟨_, emptied.play _ _, ?_⟩
      rw [netlist_of_dialect dialect, Script.textIfOk]
      cases (p.script d {} .empty).result with
      | error fault => rintro text ⟨⟩
      | ok scope =>
          rintro text ⟨⟩
          exact ByteArray.empty_append

variable {disk opened : Disk} {path : String}

theorem writeBuffered_of_unopened {fault : OutputFault} (unopened : disk.create path = .error fault)
    (capacity : Nat) (p : Package) (f : Format) :
    p.writeBuffered capacity f path disk = ⟨.error (.plain (.output fault)), disk, []⟩ := by
  unfold writeBuffered
  rw [unopened]

/-- A file that has been opened ends up with a netlist, or is gone. -/
theorem writeBuffered_of_created (created : disk.create path = .ok opened) (capacity : Nat)
    (p : Package) (f : Format) :
    (p.writeBuffered capacity f path disk).result = (p.netlist f).map (fun _ => ()) ∧
      (p.writeBuffered capacity f path disk).disk =
        match p.netlist f with
        | .ok text => disk.put path text.toUTF8
        | .error _ => disk.remove path := by
  obtain rfl := Disk.eq_put_of_create created
  unfold writeBuffered
  simp only [created]
  generalize opening : OpenFile.mk (disk.put path .empty) path capacity .empty = file
  have emptied : file.Holds disk path .empty := by
    subst opening
    exact ⟨rfl, .empty, rfl, ByteArray.append_empty⟩
  have ended := p.result_writeInto f file
  obtain ⟨content, held, whole⟩ := holds_writeInto emptied p f
  have closed := held.close
  generalize p.writeInto f file = outcome at *
  obtain ⟨result, log, after⟩ := outcome
  cases written : p.netlist f with
  | ok text =>
      rw [written] at ended
      obtain rfl : result = .ok () := ended
      refine ⟨rfl, ?_⟩
      change after.close = disk.put path text.toUTF8
      rw [← whole text written]
      exact closed
  | error fault =>
      rw [written] at ended
      obtain rfl : result = .error fault := ended
      refine ⟨rfl, ?_⟩
      change after.close.remove path = disk.remove path
      rw [closed, Disk.remove_put]

end Package

/-- A package that is written to a path leaves its netlist there as a whole, whatever the file held
before and however much the buffer takes. If the netlist fails, wherever that is, no file is left at
the path, and the failure is that of the netlist. A file that cannot be opened is reported as such
and not touched. No other file changes. -/
theorem file_holds_netlist_or_nothing (capacity : Nat) (p : Package) (f : Format) (path : String)
    (disk : Disk) :
    (∀ fault, disk.create path = .error fault →
      (p.writeBuffered capacity f path disk).disk = disk ∧
      (p.writeBuffered capacity f path disk).result = .error (.plain (.output fault))) ∧
    (∀ opened, disk.create path = .ok opened →
      (p.writeBuffered capacity f path disk).result = (p.netlist f).map (fun _ => ()) ∧
      (∀ text, p.netlist f = .ok text →
        (p.writeBuffered capacity f path disk).disk.content? path = some text.toUTF8) ∧
      ∀ fault, p.netlist f = .error fault →
        (p.writeBuffered capacity f path disk).disk.content? path = none) ∧
    disk.AgreesApartFrom path (p.writeBuffered capacity f path disk).disk := by
  cases created : disk.create path with
  | error fault =>
      rw [Package.writeBuffered_of_unopened created]
      refine ⟨?_, by rintro opened ⟨⟩, ⟨rfl, rfl, fun _ _ => rfl⟩⟩
      rintro fault ⟨⟩
      exact ⟨rfl, rfl⟩
  | ok opened =>
      obtain ⟨ended, left⟩ := Package.writeBuffered_of_created created capacity p f
      rw [ended, left]
      refine ⟨by rintro fault ⟨⟩, ?_, ?_⟩
      · rintro opened ⟨⟩
        refine ⟨rfl, ?_, ?_⟩
        · intro text written
          rw [written, Disk.content?_put, if_pos rfl]
        · intro fault failed
          rw [failed, Disk.content?_remove, if_pos rfl]
      · cases p.netlist f with
        | ok text => exact disk.agrees_put path text.toUTF8
        | error fault => exact disk.agrees_remove path

/-- A disk with a file that is there before. -/
def writtenDisk : Disk :=
  { folders := ["", "out"], files := [("out/top.sp", "old".toUTF8), ("notes", "kept".toUTF8)] }

/-- A folder that is missing leaves the old file, a package that fails takes it away, and one that
is written replaces it. -/
theorem file_holds_netlist_or_nothing_old :
    (∃ fault, writtenDisk.create "lost/top.sp" = .error fault ∧
      (halfPackage.writeFile .spice "lost/top.sp" writtenDisk).disk = writtenDisk) ∧
    (∃ opened fault, writtenDisk.create "out/top.sp" = .ok opened ∧
      halfPackage.netlist .spice = .error fault ∧
      (halfPackage.writeFile .spice "out/top.sp" writtenDisk).disk.content? "out/top.sp" = none ∧
      (halfPackage.writeFile .spice "out/top.sp" writtenDisk).disk.content? "notes"
        = some "kept".toUTF8) ∧
    ∃ opened text, writtenDisk.create "out/top.sp" = .ok opened ∧
      ({ modules := [twoPorts] } : Package).netlist .spice = .ok text ∧
      (({ modules := [twoPorts] } : Package).writeFile .spice "out/top.sp"
        writtenDisk).disk.content? "out/top.sp" = some text.toUTF8 := by
  have lost : writtenDisk.create "lost/top.sp" = .error .noSuchFile := rfl
  have opened : writtenDisk.create "out/top.sp" = .ok (writtenDisk.put "out/top.sp" .empty) := rfl
  have fails : halfPackage.netlist .spice
      = .error (.ofPlaces [.moduleNamed "pair", .instanceNamed "t0"] (.unconnectedPort "n")) := rfl
  have written : ({ modules := [twoPorts] } : Package).netlist .spice = .ok _ := rfl
  refine ⟨⟨_, lost, ?_⟩, ⟨_, _, opened, fails, ?_, ?_⟩, _, _, opened, written, ?_⟩
  · exact ((file_holds_netlist_or_nothing 8192 halfPackage .spice _ _).1 _ lost).1
  · exact ((file_holds_netlist_or_nothing 8192 halfPackage .spice _ _).2.1 _ opened).2.2 _ fails
  · exact (file_holds_netlist_or_nothing 8192 halfPackage .spice _ _).2.2.others _ (by decide)
  · exact ((file_holds_netlist_or_nothing 8192 _ .spice _ _).2.1 _ opened).2.1 _ written

end CircuitNetlist
