import Retouch.Proofs.Json.Value

/-! Reading back an object that is written without space, as a dictionary or as a record. The members of a record
may come in any order: each finds its field by its name, and only the names have to differ. -/
namespace Retouch.Json.Read

open Text

variable {σ : Type}

/-! ## Objects without space -/

/-- What is written for a value without space. -/
def compactValue (j : Json) : List UInt8 := bytes (compact j)

lemma bytes_compactMembers (m : String × Json) (ms : List (String × Json)) :
    bytes (compactMembers (m :: ms)) = writtenMembers [] compactValue true (m :: ms) := by
  refine bytes_eq_writtenMembers [] compact (fun m => rfl) (fun m m' ms => ?_) m ms
  simp [compactMembers]

lemma bytes_compact_object (ms : List (String × Json)) :
    bytes (compact (.object ms)) = 0x7B :: (writtenMembers [] compactValue true ms ++ [0x7D]) := by
  have hopen (t : Text) : bytes ('\x7b' :: t) = 0x7B :: bytes t := rfl
  have hclose : bytes ['\x7d'] = [0x7D] := by decide
  cases ms with
  | nil => rfl
  | cons m ms => simp [compact, bytes_compactMembers, hopen, hclose]

/-- A dictionary of strings is read back; of several entries with one key, the last counts. -/
lemma run_value_dict (levels : Nat) (entries : List (String × String)) (rest : List UInt8) :
    (value (.dict .string) (levels + 1)).run
        (bytes (compact (.object (entries.map fun e => (e.1, .string e.2)))) ++ rest) =
      .ok (.ofList entries, rest) := by
  have hentry (_ : String) (s : String) (rest : List UInt8) :
      (value .string levels).run (compactValue (.string s) ++ rest) = .ok (s, rest) :=
    run_value_string levels s rest
  have hnone : ∀ b ∈ ([] : List UInt8), isBlankByte b = true := nofun
  have hmembers := run_allMembers hnone hentry entries hnone rest
  rw [List.append_nil] at hmembers
  rw [bytes_compact_object, List.cons_append, List.append_assoc, value,
    run_bind_of_ok (run_demandSolid_cons (by decide)), if_pos rfl]
  exact run_bind_of_ok hmembers

/-! ## Records -/

/-- A member of a record: its name, its value, and what it changes in the record. -/
structure Member (σ : Type) where
  name : String
  json : Json
  put : σ → σ

/-- A member that gives the record a value. -/
def Member.of {α : Type} (name : String) (json : Json) (put : α → σ → σ) (a : α) : Member σ := ⟨name, json, put a⟩

/-- A member that is a string. -/
def Member.string (name text : String) (put : String → σ → σ) : Member σ := .of name (.string text) put text

@[simp] lemma Member.of_name {α : Type} (name : String) (j : Json) (put : α → σ → σ) (a : α) :
    (Member.of name j put a).name = name := rfl

@[simp] lemma Member.string_name (name text : String) (put : String → σ → σ) :
    (Member.string name text put).name = name := rfl

/-- A member is read by the field of its name, whatever follows its value. -/
def Member.IsReadBy (m : Member σ) (field? : String → Option (σ → Reader σ)) : Prop :=
  ∃ read, field? m.name = some read ∧ ∀ record rest, Ends rest →
    (read record).run (bytes (compact m.json) ++ rest) = .ok (m.put record, rest)

variable {field? : String → Option (σ → Reader σ)} {ms : List (Member σ)}

/-- A member is read if its value is, by the schema of its field. -/
lemma isReadBy_of {α : Type} {name : String} {j : Json} {put : α → σ → σ} {a : α} {s : Schema α} {levels : Nat}
    (hfield : field? name = some fun record => do return put (← value s levels) record)
    (hread : Reads s levels (bytes (compact j)) a) : (Member.of name j put a).IsReadBy field? := by
  refine ⟨_, hfield, fun record rest hrest => ?_⟩
  rw [Member.of, run_bind_of_ok (hread rest hrest)]
  rfl

lemma isReadBy_string {name text : String} {put : String → σ → σ} {levels : Nat}
    (hfield : field? name = some fun record => do return put (← value .string levels) record) :
    (Member.string name text put).IsReadBy field? :=
  isReadBy_of hfield (reads_string levels text)

/-- A comma or the closing brace follows a member. -/
lemma ends_writtenMembers (members : List (String × Json)) (rest : List UInt8) :
    Ends (writtenMembers [] compactValue false members ++ 0x7D :: rest) := by
  cases members with
  | nil => exact ends_cons (.inr (.inr rfl)) _
  | cons m members => exact ends_cons (.inl rfl) _

/-- Members are put into the record one by one, up to the closing brace. -/
lemma run_byName {fuel : Nat} (hfuel : ms.length < fuel) (isFirst : Bool) (done : Progress σ)
    (hread : ∀ m ∈ ms, m.IsReadBy field?) (hnodup : (ms.map (·.name)).Nodup)
    (hnew : ∀ name ∈ ms.map (·.name), name ∉ done.seen) (rest : List UInt8) :
    (byName field? fuel isFirst done).run
        (writtenMembers [] compactValue isFirst (ms.map fun m => (m.name, m.json)) ++ 0x7D :: rest) =
      .ok (⟨ms.foldl (fun record m => m.put record) done.record,
        (ms.map (·.name)).reverse ++ done.seen⟩, 0x7D :: rest) := by
  have hnone : ∀ b ∈ ([] : List UInt8), isBlankByte b = true := nofun
  induction ms generalizing fuel isFirst done with
  | nil =>
    obtain ⟨fuel, rfl⟩ := Nat.exists_eq_succ_of_ne_zero (Nat.ne_of_gt hfuel)
    rw [byName, List.map_nil, writtenMembers, run_bind_of_ok (run_nextMember_end isFirst hnone)]
    rfl
  | cons m ms ih =>
    obtain ⟨fuel, rfl⟩ := Nat.exists_eq_succ_of_ne_zero (Nat.ne_of_gt (Nat.zero_lt_of_lt hfuel))
    obtain ⟨name, j, put⟩ := m
    obtain ⟨⟨read, hfield, hvalue⟩, hread⟩ := List.forall_mem_cons.1 hread
    obtain ⟨hname, hnodup⟩ := List.nodup_cons.1 hnodup
    obtain ⟨hfirst, hnew⟩ := List.forall_mem_cons.1 hnew
    have hlater : ∀ other ∈ ms.map (·.name), other ∉ name :: done.seen := by
      intro other hother hmem
      rcases List.mem_cons.1 hmem with rfl | hmem
      · exact hname hother
      · exact hnew other hother hmem
    have hrest := ih (Nat.lt_of_succ_lt_succ hfuel) false ⟨put done.record, name :: done.seen⟩ hread hnodup
      hlater
    have hput := hvalue done.record _ (ends_writtenMembers (ms.map fun m => (m.name, m.json)) rest)
    rw [← compactValue] at hput
    dsimp only at hfield
    rw [List.map_cons, writtenMembers]
    simp only [bytes_quoted, List.append_assoc, List.cons_append]
    rw [← List.append_assoc, byName, run_bind_of_ok (run_nextMember isFirst hnone), if_pos rfl, ← bytes_quoted,
      run_bind_of_ok (run_quotedString name _), hfield]
    dsimp only
    rw [if_neg (by simpa using hfirst), run_bind_of_ok (run_colon _), run_bind_of_ok hput, hrest]
    simp

section Records

variable {start : σ} {fields : Fields σ} {levels : Nat}

/-- A record is read back from its members, if each is read by a field and no required one is missing. -/
lemma reads_record (hread : ∀ m ∈ ms, m.IsReadBy (Read.field? fields levels)) (hnodup : (ms.map (·.name)).Nodup)
    (hrequired : ∀ name ∈ fields.required, name ∈ ms.map (·.name)) :
    Reads (.record start fields) (levels + 1) (bytes (compact (.object (ms.map fun m => (m.name, m.json)))))
      (ms.foldl (fun record m => m.put record) start) := by
  intro rest _
  let members := ms.map fun m => (m.name, m.json)
  let names := ms.map fun m => m.name
  let found := ms.foldl (fun record m => m.put record) start
  let body := writtenMembers [] compactValue true members ++ 0x7D :: rest
  have hopen : demandSolid.run (0x7B :: body) = .ok (0x7B, 0x7B :: body) := run_demandSolid_cons rfl
  have hget : (get : Reader (List UInt8)).run body = .ok (body, body) := rfl
  have hfuel : ms.length < body.length + 1 := by
    have hlength := length_le_writtenMembers [] compactValue true members
    rw [List.length_map] at hlength
    simp only [body, List.length_append]
    omega
  have hbyName : (byName (Read.field? fields levels) (body.length + 1) true ⟨start, []⟩).run body =
      .ok (⟨found, names.reverse ++ []⟩, 0x7D :: rest) :=
    run_byName hfuel true ⟨start, []⟩ hread hnodup (fun _ _ => List.not_mem_nil) rest
  have hall : (fields.required.any fun name => !(names.reverse ++ []).contains name) = false := by
    simpa [names] using hrequired
  have hbytes : bytes (compact (.object members)) ++ rest = 0x7B :: body := by
    rw [bytes_compact_object, List.cons_append, List.append_assoc]
    rfl
  rw [hbytes, value, run_bind_of_ok hopen, if_neg (by decide), if_pos rfl]
  change (skip >>= fun _ => get >>= fun bs => _).run _ = _
  rw [run_bind_of_ok (run_skip _ _), run_bind_of_ok hget]
  refine (run_bind_of_ok hbyName).trans ?_
  dsimp only
  rw [hall]
  exact run_bind_of_ok (run_endObject rest)

theorem decode_compact_record (hread : ∀ m ∈ ms, m.IsReadBy (Read.field? fields (depthLimit - 1)))
    (hnodup : (ms.map (·.name)).Nodup) (hrequired : ∀ name ∈ fields.required, name ∈ ms.map (·.name)) :
    decode (.record start fields)
        (bytes (compact (.object (ms.map fun m => (m.name, m.json))))) =
      .ok (ms.foldl (fun record m => m.put record) start) :=
  (reads_record hread hnodup hrequired).decode

end Records

end Retouch.Json.Read
