import Retouch.History
import Retouch.Proofs.Json.Compact
import Retouch.Proofs.Json.Record
import Retouch.Proofs.Machine.Footprint
import Retouch.Proofs.Text.Lines
import Retouch.Proofs.Text.WellFormed

/-! The history as a list of lines. A record adds one line, whatever strings are in its entry, from which the time
and the entry can be read again, and then the oldest lines are dropped if there are too many. So after any number
of records the history is made of the newest of all the lines there have been, those that it began with among
them. -/
namespace Retouch

open HasDisk Disk Retouch.Task

namespace HistoryEntry

open Schema (field requiredField)
open Json.Read

variable {time : String} {e : HistoryEntry}

/-- The line that is written for an entry. -/
def line (time : String) (e : HistoryEntry) : Text := (e.toJson time).compact

/-- No byte of the line ends a line, whatever strings the entry has. -/
lemma not_mem_bytes_line (time : String) (e : HistoryEntry) :
    0x0A ∉ (e.line time).bytes ∧ 0x0D ∉ (e.line time).bytes :=
  have h : (e.line time).IsInline := Json.isInline_compact _
  ⟨h.not_mem_bytes (rfl : _ = '\n'.toNat) (by decide), h.not_mem_bytes (rfl : _ = '\r'.toNat) (by decide)⟩

/-! ## Reading a line -/

def skipFields : Fields (String × String) :=
  requiredField "id" .string (fun v skip => (v, skip.2)) <|
  requiredField "reason" .string (fun v skip => (skip.1, v)) .none

/-- The fields of a line: the time and all that is in the entry. Only the version may be missing. -/
def fields : Fields (String × HistoryEntry) :=
  requiredField "timestamp" .string (fun v r => (v, r.2)) <|
  requiredField "command" .string (fun v r => (r.1, { r.2 with command := v })) <|
  requiredField "target" .string (fun v r => (r.1, { r.2 with target := ⟨v⟩ })) <|
  field "version" .string (fun v r => (r.1, { r.2 with release := some v })) <|
  requiredField "applied" (.list .string) (fun v r => (r.1, { r.2 with applied := v })) <|
  requiredField "skipped" (.list (.record ("", "") skipFields)) (fun v r => (r.1, { r.2 with skipped := v })) <|
  requiredField "prompts_applied" (.nat UInt64.size) (fun v r => (r.1, { r.2 with promptsApplied := v })) <|
  requiredField "prompts_unmatched" (.nat UInt64.size) (fun v r => (r.1, { r.2 with promptsUnmatched := v })) .none

/-- The shape of a line. -/
def schema : Schema (String × HistoryEntry) := .record ("", .bare "" "") fields

/-- Both counts fit in a machine word, as what is counted in a run does. -/
structure Counts (e : HistoryEntry) : Prop where
  applied : e.promptsApplied < UInt64.size
  unmatched : e.promptsUnmatched < UInt64.size

/-- What stands in the object of a skip. -/
def skipMembers (skip : String × String) : List (Member (String × String)) :=
  [.string "id" skip.1 fun v skip => (v, skip.2), .string "reason" skip.2 fun v skip => (skip.1, v)]

def skipJson (skip : String × String) : Json := .object ((skipMembers skip).map fun m => (m.name, m.json))

lemma reads_skip (levels : Nat) (skip : String × String) :
    Reads (.record ("", "") skipFields) (levels + 1) (Text.bytes (skipJson skip).compact) skip := by
  have hread : ∀ m ∈ skipMembers skip, m.IsReadBy (field? skipFields levels) := by
    simp only [skipMembers, List.forall_mem_cons]
    exact ⟨isReadBy_string rfl, isReadBy_string rfl, List.forall_mem_nil _⟩
  have hnames : (skipMembers skip).map (·.name) = ["id", "reason"] := rfl
  have hrequired : skipFields.required = ["id", "reason"] := rfl
  exact reads_record hread (by rw [hnames]; decide) (by rw [hnames, hrequired]; decide)

def versionMember (v : String) : Member (String × HistoryEntry) :=
  .string "version" v fun v r => (r.1, { r.2 with release := some v })

/-- What stands in the object of an entry. -/
def members (time : String) (e : HistoryEntry) : List (Member (String × HistoryEntry)) :=
  [.string "timestamp" time fun v r => (v, r.2),
    .string "command" e.command fun v r => (r.1, { r.2 with command := v }),
    .string "target" e.target.text fun v r => (r.1, { r.2 with target := ⟨v⟩ })] ++
  (e.release.map versionMember).toList ++
  [.of "applied" (.strings e.applied) (fun v r => (r.1, { r.2 with applied := v })) e.applied,
    .of "skipped" (.array (e.skipped.map skipJson)) (fun v r => (r.1, { r.2 with skipped := v })) e.skipped,
    .of "prompts_applied" (.number e.promptsApplied) (fun v r => (r.1, { r.2 with promptsApplied := v }))
      e.promptsApplied,
    .of "prompts_unmatched" (.number e.promptsUnmatched) (fun v r => (r.1, { r.2 with promptsUnmatched := v }))
      e.promptsUnmatched]

lemma toJson_eq (time : String) (e : HistoryEntry) :
    e.toJson time = .object ((e.members time).map fun m => (m.name, m.json)) := by
  obtain ⟨command, target, release, applied, skipped, promptsApplied, promptsUnmatched⟩ := e
  cases release with
  | none => rfl
  | some v => rfl

lemma isReadBy_of_mem_members (h : e.Counts) :
    ∀ m ∈ e.members time, m.IsReadBy (field? fields (depthLimit - 1)) := by
  have hversion : ∀ m ∈ (e.release.map versionMember).toList, m.IsReadBy (field? fields (depthLimit - 1)) := by
    intro m hm
    obtain ⟨v, -, rfl⟩ := Option.map_eq_some_iff.1 (Option.mem_toList.1 hm)
    exact isReadBy_string rfl
  simp only [members, List.forall_mem_append, List.forall_mem_cons]
  refine ⟨⟨⟨isReadBy_string rfl, isReadBy_string rfl, isReadBy_string rfl, List.forall_mem_nil _⟩, hversion⟩, ?_⟩
  exact ⟨isReadBy_of rfl (reads_array (reads_string 125) e.applied),
    isReadBy_of rfl (reads_array (reads_skip 124) e.skipped), isReadBy_of rfl (reads_nat 126 h.applied h.applied),
    isReadBy_of rfl (reads_nat 126 h.unmatched h.unmatched), List.forall_mem_nil _⟩

/-- A line is read back as the time and the entry, with or without a version. -/
theorem decode_line (time : String) (h : e.Counts) : Json.decode schema (e.line time).bytes = .ok (time, e) := by
  have hnodup : ((e.members time).map (·.name)).Nodup := by
    cases hrelease : e.release with
    | none => simp [members, hrelease]
    | some v => simp [members, hrelease, versionMember]
  have hrequired : ∀ name ∈ fields.required, name ∈ (e.members time).map (·.name) := by
    simp [fields, members, requiredField, field, Fields.required]
  rw [line, toJson_eq, schema]
  refine (decode_compact_record (isReadBy_of_mem_members h) hnodup hrequired).trans ?_
  obtain ⟨command, target, release, applied, skipped, promptsApplied, promptsUnmatched⟩ := e
  cases release with
  | none => rfl
  | some v => rfl

end HistoryEntry

namespace History

/-- The newest lines, as many as are kept. -/
def newest {α : Type} (lines : List α) : List α := lines.drop (lines.length - limit)

/-- The file of a path is made of lines, each with a line feed behind it. Without a file there are no lines. -/
def Holds (d : Disk) (p : Path) (lines : List (List UInt8)) : Prop :=
  d.entry? (d.destination p) = none ∧ lines = [] ∨ d.read p = .ok (Text.withEnds 0x0A lines)

section Newest

variable {α β : Type} (lines : List α)

lemma length_newest : (newest lines).length = min limit lines.length := by
  rw [newest, List.length_drop]
  omega

lemma newest_of_le (h : lines.length ≤ limit) : newest lines = lines := by
  rw [newest, Nat.sub_eq_zero_of_le h, List.drop_zero]

lemma map_newest (f : α → β) : (newest lines).map f = newest (lines.map f) := by
  rw [newest, newest, List.map_drop, List.length_map]

/-- Of the newest lines and one more, the newest are those of all the lines and that one. -/
lemma newest_newest_append (line : α) : newest (newest lines ++ [line]) = newest (lines ++ [line]) := by
  have hdrop : newest lines ++ [line] = (lines ++ [line]).drop (lines.length - limit) := by
    rw [newest, List.drop_append_of_le_length (Nat.sub_le _ _)]
  have hcount : ∀ k, lines.length - k + (lines.length + 1 - (lines.length - k) - k) = lines.length + 1 - k := by
    omega
  rw [hdrop, newest, newest, List.drop_drop, List.length_drop, List.length_append, List.length_singleton, hcount]

end Newest

/-- Trimming leaves the newest lines. -/
lemma trim?_withEnds {lines : List Text} (h : ∀ line ∈ lines, '\n' ∉ line ∧ '\r' ∉ line) :
    (trim? (Text.withEnds '\n' lines)).getD (Text.withEnds '\n' lines) = Text.withEnds '\n' (newest lines) := by
  rw [trim?, Text.lines_withEnds h]
  split_ifs with hfew
  · rw [newest_of_le lines hfew]
    rfl
  · have hne : newest lines ≠ [] := by
      intro hnil
      have hlength := length_newest lines
      rw [hnil, List.length_nil] at hlength
      have : limit = 500 := rfl
      omega
    exact Text.join_append_feed hne

variable {σ : Type} [HasDisk σ] [Host (StateM σ)] [Faithful σ] {s s₁ s' : σ} {d d' : Disk} {folder p : Path}
  {e : HistoryEntry} {bytes : List UInt8} {lines : List (List UInt8)}

lemma Holds.bytes_fileAt (h : Holds d p lines) : (d.fileAt (d.destination p)).bytes = Text.withEnds 0x0A lines := by
  rcases h with ⟨hnone, rfl⟩ | hread
  · rw [fileAt, hnone]
    rfl
  · obtain ⟨n, hn, hbytes⟩ := read_eq_ok.1 hread
    have hentry := (fileNumber_eq_ok.1 hn).2
    rw [Points] at hentry
    rw [fileAt, hentry]
    exact hbytes

/-- A text whose bytes are lines without other ends is read as those lines, and trimmed to the newest. -/
lemma bytes_trim? {t : Text} (ht : t.bytes = Text.withEnds 0x0A lines)
    (hlines : ∀ line ∈ lines, 0x0A ∉ line ∧ 0x0D ∉ line) :
    ((trim? t).getD t).bytes = Text.withEnds 0x0A (newest lines) := by
  obtain ⟨us, rfl, rfl⟩ := Text.exists_withEnds_of_bytes_eq ht
  have hclean : ∀ u ∈ us, '\n' ∉ u ∧ '\r' ∉ u := by
    intro u hu
    obtain ⟨hfeed, hreturn⟩ := hlines u.bytes (List.mem_map_of_mem hu)
    exact ⟨fun h => hfeed (List.mem_flatMap.2 ⟨_, h, List.mem_singleton_self _⟩),
      fun h => hreturn (List.mem_flatMap.2 ⟨_, h, List.mem_singleton_self _⟩)⟩
  rw [trim?_withEnds hclean, Text.bytes_withEnds, map_newest]

lemma readText_eq_ok {what : String} {t : Text} (h : outcome (readText what p) s = (.ok t, s')) :
    (disk s).read p = .ok t.bytes ∧ disk s' = disk s := by
  obtain ⟨bytes, s₁, hread, h⟩ := bind_eq_ok.1 h
  obtain ⟨hbytes, hdisk, -⟩ := Task.read_eq_ok p what hread
  split at h
  · next u hu =>
    cases h
    rw [← Utf8.decode?_eq_some_iff.1 hu]
    exact ⟨hbytes, hdisk⟩
  · cases h

lemma read_of_trim (hread : (disk s).read p = .ok (Text.withEnds 0x0A lines))
    (hlines : ∀ line ∈ lines, 0x0A ∉ line ∧ 0x0D ∉ line) (h : outcome (trim p) s = (.ok (), s')) :
    (disk s').read p = .ok (Text.withEnds 0x0A (newest lines)) := by
  obtain ⟨t, s₁, htext, h⟩ := bind_eq_ok.1 h
  obtain ⟨ht, hdisk⟩ := readText_eq_ok htext
  have htrim := bytes_trim? (Except.ok.inj (ht.symm.trans hread)) hlines
  split at h
  · next hnone =>
    cases h
    rw [hnone, Option.getD_none] at htrim
    rw [hdisk, ht, htrim]
  · next kept hkept =>
    rw [hkept, Option.getD_some] at htrim
    obtain ⟨hwrite, -⟩ := request_eq_ok (Faithful.write p kept.bytes) h
    rw [(write_eq_ok hwrite).read, htrim]

/-- Before the line is added, nothing has happened to the file but that there are folders for it. -/
lemma Holds.read_of_append {line : Text} {d₁ : Disk} (h : Holds d p lines) (hfolders : d.Touches [] d₁)
    (happend : d₁.append p (Text.bytes (line ++ ['\n'])) = .ok d') :
    d'.read p = .ok (Text.withEnds 0x0A (lines ++ [line.bytes])) := by
  have hline : Text.bytes (line ++ ['\n']) = Text.withEnds 0x0A [line.bytes] := by
    rw [Text.bytes_append, Text.withEnds_cons, Text.withEnds_nil]
    rfl
  rw [(append_eq_ok happend).read, hfolders.bytes_fileAt, h.bytes_fileAt, hline, Text.withEnds_append]

/-- A record adds the line of its entry behind all others, and keeps the newest. -/
lemma Holds.read_of_record (h : Holds (disk s) (folder.join fileName) lines)
    (hlines : ∀ line ∈ lines, 0x0A ∉ line ∧ 0x0D ∉ line) (hrun : outcome (record folder e) s = (.ok (), s')) :
    (disk s').read (folder.join fileName) = .ok (Text.withEnds 0x0A
      (newest (lines ++ [(e.line ((Host.now (m := StateM σ)).run s).1).bytes]))) := by
  obtain ⟨time, s₁, hnow, hrun⟩ := bind_eq_ok.1 hrun
  obtain ⟨u, s₂, hmake, hrun⟩ := bind_eq_ok.1 hrun
  obtain ⟨u', s₃, happend, htrim⟩ := bind_eq_ok.1 hrun
  rw [outcome_ask, Prod.mk.injEq, Except.ok.injEq] at hnow
  obtain ⟨rfl, rfl⟩ := hnow
  have hsame := (Faithful.now (σ := σ) s).1
  have hfolders := ((within_createFolders folder _).leads hmake).1
  rw [hsame] at hfolders
  have hread := h.read_of_append hfolders (request_eq_ok (Faithful.append _ _) happend).1
  refine read_of_trim hread (fun line hline => ?_) htrim
  rcases List.mem_append.1 hline with hold | hnew
  · exact hlines line hold
  · rw [List.mem_singleton.1 hnew]
    exact e.not_mem_bytes_line _

variable {entries : List (String × HistoryEntry)}

/-- One or more records of entries, one after the other. An entry comes with the time that its line tells. -/
inductive Recorded (folder : Path) (s : σ) : List (String × HistoryEntry) → σ → Prop
  | first {s' : σ} {e : HistoryEntry} : outcome (record folder e) s = (.ok (), s') →
      Recorded folder s [(((Host.now (m := StateM σ)).run s).1, e)] s'
  | next {entries : List (String × HistoryEntry)} {s₁ s' : σ} {e : HistoryEntry} :
      Recorded folder s entries s₁ → outcome (record folder e) s₁ = (.ok (), s') →
      Recorded folder s (entries ++ [(((Host.now (m := StateM σ)).run s₁).1, e)]) s'

def linesOf (entries : List (String × HistoryEntry)) : List (List UInt8) :=
  entries.map fun (time, e) => (e.line time).bytes

/-- The time and the entry are read from a line. -/
def Tells (line : List UInt8) (entry : String × HistoryEntry) : Prop :=
  entry.2.Counts → Json.decode HistoryEntry.schema line = .ok entry

lemma tells_linesOf (entries : List (String × HistoryEntry)) : List.Forall₂ Tells (linesOf entries) entries := by
  induction entries with
  | nil => exact .nil
  | cons entry entries ih => exact .cons (HistoryEntry.decode_line entry.1) ih

/-- From lines that tell entries these are read, in their order. -/
lemma map_decode_of_tells (h : List.Forall₂ Tells lines entries) (hcounts : ∀ entry ∈ entries, entry.2.Counts) :
    lines.map (Json.decode HistoryEntry.schema) = entries.map .ok := by
  induction h with
  | nil => rfl
  | cons htells _ ih =>
    obtain ⟨hcount, hcounts⟩ := List.forall_mem_cons.1 hcounts
    rw [List.map_cons, List.map_cons, htells hcount, ih hcounts]

lemma not_mem_linesOf (entries : List (String × HistoryEntry)) :
    ∀ line ∈ linesOf entries, 0x0A ∉ line ∧ 0x0D ∉ line := by
  intro line hline
  obtain ⟨⟨time, e⟩, -, rfl⟩ := List.mem_map.1 hline
  exact e.not_mem_bytes_line time

lemma not_mem_newest (hlines : ∀ line ∈ lines, 0x0A ∉ line ∧ 0x0D ∉ line) :
    ∀ line ∈ newest (lines ++ linesOf entries), 0x0A ∉ line ∧ 0x0D ∉ line := by
  intro line hline
  rcases List.mem_append.1 (List.mem_of_mem_drop hline) with hold | hnew
  · exact hlines line hold
  · exact not_mem_linesOf entries line hnew

/-- What one record drops would not be among the newest lines at the next one, so the records together keep the
newest of all. -/
lemma Recorded.read (h : Holds (disk s) (folder.join fileName) lines)
    (hlines : ∀ line ∈ lines, 0x0A ∉ line ∧ 0x0D ∉ line) (hrun : Recorded folder s entries s') :
    (disk s').read (folder.join fileName) = .ok (Text.withEnds 0x0A (newest (lines ++ linesOf entries))) := by
  induction hrun with
  | first hfirst => exact h.read_of_record hlines hfirst
  | @next entries s₁ s' e _ hlast ih =>
    have hbefore : Holds (disk s₁) (folder.join fileName) (newest (lines ++ linesOf entries)) := .inr ih
    have hread := hbefore.read_of_record (not_mem_newest hlines) hlast
    rw [newest_newest_append, List.append_assoc] at hread
    rw [hread, linesOf, linesOf, List.map_append, List.map_singleton]

omit [HasDisk σ] [Faithful σ] in
lemma Recorded.ne_nil (hrun : Recorded folder s entries s') : entries ≠ [] := by
  cases hrun <;> simp

/-- Of the lines that were there and those of the entries, in their order, a history keeps the newest. The line of
an entry tells it with its time. -/
theorem read_of_recorded (h : Holds (disk s) (folder.join fileName) lines)
    (hlines : ∀ line ∈ lines, 0x0A ∉ line ∧ 0x0D ∉ line) (hrun : Recorded folder s entries s') :
    ∃ kept bytes, kept <:+ lines ++ linesOf entries ∧ kept.length = min 500 (lines.length + entries.length) ∧
      (disk s').read (folder.join fileName) = .ok bytes ∧ bytes = Text.withEnds 0x0A kept ∧
      bytes.getLast? = some 0x0A ∧ (∀ line ∈ kept, 0x0A ∉ line) ∧ List.Forall₂ Tells (linesOf entries) entries := by
  have hcount : (newest (lines ++ linesOf entries)).length = min 500 (lines.length + entries.length) := by
    rw [length_newest, List.length_append, linesOf, List.length_map, limit]
  have hne : newest (lines ++ linesOf entries) ≠ [] := by
    have hentries := List.length_pos_iff.2 hrun.ne_nil
    rw [← List.length_pos_iff, hcount]
    omega
  exact ⟨_, _, List.drop_suffix _ _, hcount, hrun.read h hlines, rfl, Text.getLast?_withEnds hne,
    fun line hline => (not_mem_newest hlines line hline).1, tells_linesOf entries⟩

/-- As many lines as a history may have. -/
def manyLines : List (List UInt8) := List.replicate 500 [0x7B, 0x7D]

def full : Machine := .ofDisk
  ⟨.ofList [(["w"], .folder 0o755), (["w", "st"], .folder 0o755), (["w", "st", "apply_log.jsonl"], .file 0)],
    .ofList [(0, ⟨Text.withEnds 0x0A manyLines, 0o644⟩)], ["w"]⟩

/-- An entry that has line breaks wherever it can. -/
def broken : HistoryEntry := ⟨"apply\n", "a\r\nb.js", some "\n1.0\r", ["themes\n"], [("\r\n", "not\nfound")], 0, 1⟩

/-- An entry that tells no version. -/
def bareEntry : HistoryEntry := .bare "restore" "b\n.js"

theorem read_of_recorded_full :
    ∃ first second s' kept bytes, Recorded "st" full [(first, broken), (second, bareEntry)] s' ∧
      kept <:+ manyLines ++ linesOf [(first, broken), (second, bareEntry)] ∧ kept.length = 500 ∧
      (disk s').read (Path.join "st" fileName) = .ok bytes ∧ bytes = Text.withEnds 0x0A kept ∧
      bytes.getLast? = some 0x0A ∧ (∀ line ∈ kept, 0x0A ∉ line) ∧
      (linesOf [(first, broken), (second, bareEntry)]).map (Json.decode HistoryEntry.schema) =
        [.ok (first, broken), .ok (second, bareEntry)] := by
  let twice : Task (StateM Machine) Unit := record "st" broken >>= fun _ => record "st" bareEntry
  have hok : (outcome twice full).1.isOk = true := by decide +kernel
  have hread : (disk full).read (Path.join "st" fileName) = .ok (Text.withEnds 0x0A manyLines) := by decide +kernel
  have hlines : ∀ line ∈ manyLines, 0x0A ∉ line ∧ 0x0D ∉ line := by
    intro line hline
    rw [List.eq_of_mem_replicate hline]
    decide
  obtain ⟨u, s', hrun⟩ := exists_of_isOk hok
  obtain ⟨u', s₁, hfirst, hlast⟩ := bind_eq_ok.1 hrun
  have hrecorded := (Recorded.first hfirst).next hlast
  obtain ⟨kept, bytes, hsuffix, hcount, hbytes, hends, hlastByte, hfeeds, htells⟩ :=
    read_of_recorded (.inr hread) hlines hrecorded
  rw [manyLines, List.length_replicate] at hcount
  have hcounts (first second : String) : ∀ entry ∈ [(first, broken), (second, bareEntry)], entry.2.Counts := by
    simp only [List.forall_mem_cons]
    exact ⟨⟨by decide, by decide⟩, ⟨by decide, by decide⟩, List.forall_mem_nil _⟩
  exact ⟨_, _, s', kept, bytes, hrecorded, hsuffix, hcount, hbytes, hends, hlastByte, hfeeds,
    map_decode_of_tells htells (hcounts _ _)⟩

end History
end Retouch
