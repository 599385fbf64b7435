import Mathlib.Data.String.Basic
import Retouch.Proofs.Prompt.Ledger
import Retouch.Proofs.Text.Order
import Retouch.Proofs.Text.Pieces

/-! A ledger that is saved and loaded again. Its file has a row for each prompt, in the order of the bytes of their
ids. Nothing is lost in it: ids and hashes may have any characters, and a prompt without a hash has a row of its
own. -/
namespace Retouch.Ledger

open HasDisk Disk Retouch.Task

/-- A prompt and its hash. -/
def row (entry : String × Option String) : Text :=
  "  ".toList ++ Json.quoted entry.1.toList ++ ": ".toList ++
    match entry.2 with
    | none => "null".toList
    | some hash => Json.quoted hash.toList

/-- The text of a file: a row for each prompt between two braces. -/
def layout : List (String × Option String) → Text
  | [] => "\x7b\x7d".toList
  | e :: es => "\x7b\n".toList ++ Text.join ",\n".toList ((e :: es).map row) ++ "\n\x7d".toList

lemma prettyMembers_eq_join (e : String × Option String) (es : List (String × Option String)) :
    Json.prettyMembers 1 ((e :: es).map fun e => (e.1, .ofOption e.2)) =
      '\n' :: Text.join ",\n".toList ((e :: es).map row) := by
  have hrow (e : String × Option String) : Json.indent 1 ++ Json.quoted e.1.toList ++ ": ".toList ++
      Json.prettyAt 1 (.ofOption e.2) = '\n' :: row e := by
    obtain ⟨id, _ | hash⟩ := e <;> simp [Json.indent, row, Json.prettyAt, Json.ofOption]
  induction es generalizing e with
  | nil =>
    rw [List.map_singleton, Json.prettyMembers, hrow]
    simp [Text.join]
  | cons e' es ih =>
    have hlater := ih e'
    rw [List.map_cons] at hlater
    rw [List.map_cons, List.map_cons, Json.prettyMembers, hrow, hlater, List.map_cons, List.map_cons, List.map_cons,
      Text.join_cons_cons]
    · simp
    · exact List.cons_ne_nil _ _

lemma render_eq_layout (ledger : Ledger) : ledger.render = layout ledger.entries := by
  change Json.prettyAt 0 (.object (ledger.entries.map fun e => (e.1, .ofOption e.2))) = _
  rw [Json.prettyAt]
  cases ledger.entries with
  | nil => rfl
  | cons e es =>
    rw [prettyMembers_eq_join, layout]
    simp [Json.indent]

/-- Ids are in the order of their bytes, for a ledger has them in the order of their characters. -/
lemma pairwise_bytes_keys (ledger : Ledger) : (ledger.keys.map fun id => Text.bytes id.toList).Pairwise (· < ·) := by
  refine List.pairwise_map.2 (List.pairwise_map.2 (ledger.increasing.imp fun {d e} h => ?_))
  exact Text.bytes_lt_bytes (String.lt_iff_toList_lt.1 (compareOfLessAndEq_eq_lt.1 h))

variable {ledger : Ledger} {p : Path}

lemma read_of_save {σ : Type} [HasDisk σ] [Host (StateM σ)] [Faithful σ] {s s' : σ}
    (h : outcome (ledger.save p) s = (.ok (), s')) : (disk s').read p = .ok ledger.render.bytes := by
  obtain ⟨u, s₁, -, hwrite⟩ := bind_eq_ok.1 h
  obtain ⟨hwhole, -⟩ := request_eq_ok (Faithful.write p ledger.render.bytes) hwrite
  exact (write_eq_ok hwhole).read

/-- A ledger that has been saved is loaded as it was, from a file that is laid out in the order of its ids. -/
theorem load_of_save {s s' : Machine} (h : outcome (ledger.save p) s = (.ok (), s')) :
    outcome (load p) s' = (.ok ledger, s') ∧ (disk s').read p = .ok (layout ledger.entries).bytes ∧
      (ledger.keys.map fun id => Text.bytes id.toList).Pairwise (· < ·) := by
  have hread := read_of_save h
  refine ⟨outcome_load hread, ?_, pairwise_bytes_keys ledger⟩
  rw [hread, render_eq_layout]

/-- Ids that are hard to write or to put in order, some of them without a hash. -/
def unusual : Ledger :=
  .ofList [("\uff5e", some "\n"), ("😀", none), ("a\"b\\c", some ""), ("\x01\t\r\n", none), ("", none)]

theorem load_of_save_unusual :
    let s : Machine := .ofDisk (.blank ["w"])
    ∃ s', outcome (unusual.save "st/applied.json") s = (.ok (), s') ∧
      outcome (load "st/applied.json") s' = (.ok unusual, s') ∧
      (disk s').read "st/applied.json" = .ok (layout unusual.entries).bytes ∧
      (unusual.keys.map fun id => Text.bytes id.toList).Pairwise (· < ·) := by
  intro s
  have hok : (outcome (unusual.save "st/applied.json") s).1.isOk = true := by decide +kernel
  obtain ⟨u, s', hsave⟩ := exists_of_isOk hok
  exact ⟨s', hsave, load_of_save hsave⟩

end Retouch.Ledger
