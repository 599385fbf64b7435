import Retouch.Proofs.Text.Boundary
import Retouch.Proofs.Text.Pieces

/-! Offsets that a search finds. Rounding up gives a boundary, a text that is searched for stands between
two boundaries, and so does every byte that is a character of its own: no byte of a longer character
looks like one. -/
namespace Retouch.Text

/-! ## Rounding up -/

lemma boundaryAfter_go_spec (offset : Nat) (a t : Text) :
    ∃ m b, t = m ++ b ∧ boundaryAfter.go offset a.size t = a.size + m.size ∧
      ∀ n ≤ offset, n ≤ a.size + t.size → n ≤ a.size + m.size := by
  induction t generalizing a with
  | nil => exact ⟨[], [], rfl, rfl, fun n _ hn => hn⟩
  | cons c t ih =>
    rw [boundaryAfter.go]
    split
    · next hpast => exact ⟨[], c :: t, rfl, rfl, fun n hn _ => by rw [size_nil]; omega⟩
    · obtain ⟨m, b, rfl, hgo, hle⟩ := ih (a ++ [c])
      simp only [size_append, size_cons, size_nil, Nat.add_zero] at hgo hle ⊢
      refine ⟨c :: m, b, rfl, ?_, fun n hn hsize => ?_⟩
      · rw [hgo, size_cons]
        omega
      · have := hle n hn (by omega)
        rw [size_cons]
        omega

lemma isBoundary_boundaryAfter (t : Text) (n : Nat) : t.isBoundary (t.boundaryAfter n) := by
  obtain ⟨m, b, rfl, hgo, -⟩ := boundaryAfter_go_spec n [] t
  rw [size_nil, Nat.zero_add] at hgo
  exact isBoundary_iff.2 ⟨m, b, rfl, hgo.symm⟩

lemma le_boundaryAfter {t : Text} {n k : Nat} (hle : k ≤ n) (hsize : k ≤ t.size) :
    k ≤ t.boundaryAfter n := by
  obtain ⟨m, b, rfl, hgo, hk⟩ := boundaryAfter_go_spec n [] t
  have := hk k hle (by simpa using hsize)
  rw [boundaryAfter]
  rw [size_nil] at hgo this
  omega

lemma boundaryAfter_go_le {offset pos : Nat} {m b : Text} (h : offset ≤ pos + m.size) :
    boundaryAfter.go offset pos (m ++ b) ≤ pos + m.size := by
  induction m generalizing pos with
  | nil =>
    rw [size_nil, Nat.add_zero] at h ⊢
    cases b with
    | nil => exact Nat.le_refl pos
    | cons c b => exact Nat.le_of_eq (if_pos h)
  | cons c m ih =>
    rw [List.cons_append, boundaryAfter.go, size_cons, ← Nat.add_assoc]
    rw [size_cons, ← Nat.add_assoc] at h
    split
    · omega
    · exact ih h

/-- Rounding up gives the least boundary that is not before the offset. -/
lemma boundaryAfter_le {t : Text} {n k : Nat} (h : t.isBoundary k) (hle : n ≤ k) : t.boundaryAfter n ≤ k := by
  obtain ⟨a, b, rfl, rfl⟩ := isBoundary_iff.1 h
  have hgo := boundaryAfter_go_le (b := b) (by rwa [Nat.zero_add] : n ≤ 0 + a.size)
  rwa [Nat.zero_add] at hgo

/-! ## Slices of slices -/

/-- A slice that goes on after a text begins with it. -/
lemma exists_of_slice?_append {front m rest found : Text} {stop : Nat}
    (h : (front ++ m ++ rest).slice? front.size stop = some found) (hle : size (front ++ m) ≤ stop) :
    ∃ later after, front ++ m ++ rest = front ++ (m ++ later) ++ after ∧ found = m ++ later ∧
      stop = size (front ++ (m ++ later)) := by
  obtain ⟨front', after, ht, hfront, rfl⟩ := slice?_eq_some.1 h
  have hparts := ht
  rw [List.append_assoc, List.append_assoc front'] at hparts
  obtain ⟨rfl, hrest⟩ := append_inj_of_size hparts hfront.symm
  rw [size_append] at hle
  obtain ⟨later, rfl, -⟩ := exists_append_of_size_le hrest (Nat.le_of_add_le_add_left hle)
  exact ⟨later, after, ht, rfl, (size_append _ _).symm⟩

lemma isBoundary_of_slice? {t m : Text} {start stop n : Nat} (h : t.slice? start stop = some m)
    (hn : m.isBoundary n) : t.isBoundary (start + n) := by
  obtain ⟨a, b, rfl, rfl, -⟩ := slice?_eq_some.1 h
  obtain ⟨x, y, rfl, rfl⟩ := isBoundary_iff.1 hn
  exact isBoundary_iff.2 ⟨a ++ x, y ++ b, by simp, by simp⟩

/-! ## Searched texts -/

lemma splitOnce?_go_eq_some {needle before t a b : Text}
    (h : splitOnce?.go needle before t = some (a, b)) :
    before.reverse ++ t = a ++ needle ++ b := by
  induction t generalizing before with
  | nil =>
    unfold splitOnce?.go at h
    split at h
    · next hafter =>
      cases h
      rw [after?_eq_some.1 hafter, List.append_assoc]
    · cases h
  | cons c t ih =>
    unfold splitOnce?.go at h
    split at h
    · next hafter =>
      cases h
      rw [after?_eq_some.1 hafter, List.append_assoc]
    · rw [← ih h]
      simp

/-- A text stands at an offset of another one. -/
def StandsAt (needle t : Text) (n : Nat) : Prop := ∃ a b : Text, t = a ++ needle ++ b ∧ a.size = n

lemma StandsAt.isBoundary {needle t : Text} {n : Nat} (h : needle.StandsAt t n) : t.isBoundary n := by
  obtain ⟨a, b, rfl, rfl⟩ := h
  rw [List.append_assoc]
  exact isBoundary_append_size a (needle ++ b)

lemma StandsAt.isBoundary_stop {needle t : Text} {n : Nat} (h : needle.StandsAt t n) :
    t.isBoundary (n + needle.size) := by
  obtain ⟨a, b, rfl, rfl⟩ := h
  rw [← size_append]
  exact isBoundary_append_size (a ++ needle) b

lemma StandsAt.le_size {needle t : Text} {n : Nat} (h : needle.StandsAt t n) : n ≤ t.size :=
  le_size_of_isBoundary h.isBoundary

lemma standsAt_of_find? {t needle : Text} {n : Nat} (h : t.find? needle = some n) :
    needle.StandsAt t n := by
  obtain ⟨⟨a, b⟩, hsplit, rfl⟩ := Option.map_eq_some_iff.1 h
  exact ⟨a, b, by simpa using splitOnce?_go_eq_some hsplit, rfl⟩

lemma find?_append {a : Text} {c : Char} (h : c ∉ a) (b : Text) : (a ++ c :: b).find? [c] = some a.size := by
  rw [find?, splitOnce?_append h, Option.map_some]

lemma find?_singleton_eq_none_iff {t : Text} {c : Char} : t.find? [c] = none ↔ c ∉ t := by
  constructor
  · intro h hmem
    obtain ⟨a, b, rfl, ha⟩ := List.eq_append_cons_of_mem hmem
    rw [find?_append ha] at h
    cases h
  · intro h
    refine Option.eq_none_iff_forall_ne_some.2 fun n hn => ?_
    obtain ⟨a, b, rfl, -⟩ := standsAt_of_find? hn
    simp at h

/-- A single character is found where it stands first. -/
lemma find?_singleton_eq_some_iff {t : Text} {c : Char} {n : Nat} :
    t.find? [c] = some n ↔ ∃ a b, t = a ++ c :: b ∧ c ∉ a ∧ a.size = n := by
  constructor
  · intro h
    by_cases hmem : c ∈ t
    · obtain ⟨a, b, rfl, ha⟩ := List.eq_append_cons_of_mem hmem
      rw [find?_append ha, Option.some.injEq] at h
      exact ⟨a, b, rfl, ha, h⟩
    · rw [find?_singleton_eq_none_iff.2 hmem] at h
      cases h
  · rintro ⟨a, b, rfl, ha, rfl⟩
    exact find?_append ha b

lemma exists_append_of_mem_occurrencesFrom {needle t : Text} {skip pos n : Nat}
    (h : n ∈ occurrencesFrom needle skip pos t) :
    ∃ a b : Text, t = a ++ needle ++ b ∧ pos + a.size = n := by
  have hlater {c : Char} {t : Text} {pos : Nat}
      (h : ∃ a b : Text, t = a ++ needle ++ b ∧ pos + c.utf8Size + a.size = n) :
      ∃ a b : Text, c :: t = a ++ needle ++ b ∧ pos + a.size = n := by
    obtain ⟨a, b, rfl, rfl⟩ := h
    exact ⟨c :: a, b, rfl, by rw [size_cons]; omega⟩
  induction t generalizing skip pos with
  | nil => cases skip <;> cases h
  | cons c t ih =>
    cases skip with
    | succ skip => exact hlater (ih h)
    | zero =>
      rw [occurrencesFrom] at h
      split at h
      · next rest hafter =>
        rcases List.mem_cons.1 h with rfl | h
        · exact ⟨[], rest, by simpa using after?_eq_some.1 hafter, rfl⟩
        · exact hlater (ih h)
      · exact hlater (ih h)

lemma standsAt_of_mem_occurrences {t needle : Text} {n : Nat} (h : n ∈ t.occurrences needle) :
    needle.StandsAt t n := by
  obtain ⟨a, b, rfl, hn⟩ := exists_append_of_mem_occurrencesFrom h
  exact ⟨a, b, rfl, by omega⟩

/-! ## Single bytes -/

lemma isBoundary_cons (c : Char) {t : Text} {n : Nat} (h : t.isBoundary n) :
    isBoundary (c :: t) (c.utf8Size + n) := by
  obtain ⟨a, b, rfl, rfl⟩ := isBoundary_iff.1 h
  exact isBoundary_iff.2 ⟨c :: a, b, rfl, size_cons c a⟩

/-- A byte below 128 is all of its character. -/
lemma utf8EncodeChar_eq_singleton {c : Char} {b : UInt8} (h : b ∈ String.utf8EncodeChar c)
    (hb : b.toNat < 0x80) : String.utf8EncodeChar c = [b] := by
  have hhigh (n : Nat) (hn : 0x80 ≤ n % 256) : b ≠ UInt8.ofNat n := by
    rintro rfl
    rw [UInt8.toNat_ofNat'] at hb
    omega
  simp only [String.utf8EncodeChar] at h ⊢
  split at h <;> rename_i hc
  · rw [if_pos hc, List.mem_singleton.1 h]
  · exfalso
    split at h <;> rename_i hc'
    · simp only [List.mem_cons, List.not_mem_nil, or_false] at h
      rcases h with h | h
      · exact hhigh _ (by omega) h
      · exact hhigh _ (by omega) h
    · split at h <;> simp only [List.mem_cons, List.not_mem_nil, or_false] at h
      · rcases h with h | h | h
        · exact hhigh _ (by omega) h
        · exact hhigh _ (by omega) h
        · exact hhigh _ (by omega) h
      · rcases h with h | h | h | h
        · exact hhigh _ (by omega) h
        · exact hhigh _ (by omega) h
        · exact hhigh _ (by omega) h
        · exact hhigh _ (by omega) h

lemma toNat_eq_of_utf8EncodeChar {c : Char} {b : UInt8} (h : String.utf8EncodeChar c = [b]) :
    b.toNat = c.toNat := by
  simp only [String.utf8EncodeChar] at h
  split at h
  · next hshort =>
    rw [← (List.cons.inj h).1, UInt8.toNat_ofNat']
    exact Nat.mod_eq_of_lt (by omega)
  · split at h
    · simp at h
    · split at h <;> simp at h

/-- Only an ASCII character has its byte. -/
lemma eq_of_mem_utf8EncodeChar {c d : Char} {b : UInt8} (hb : b ∈ String.utf8EncodeChar c)
    (hd : d.toNat < 0x80) (heq : b.toNat = d.toNat) : c = d := by
  have hc := toNat_eq_of_utf8EncodeChar (utf8EncodeChar_eq_singleton hb (heq ▸ hd))
  rw [Char.ext_iff, ← UInt32.toNat_inj]
  exact hc.symm.trans heq

/-- A byte below 128 stands between two boundaries. -/
lemma isBoundary_of_bytes_eq {t : Text} {front rest : List UInt8} {b : UInt8}
    (h : t.bytes = front ++ b :: rest) (hb : b.toNat < 0x80) :
    t.isBoundary front.length ∧ t.isBoundary (front.length + 1) := by
  induction t generalizing front with
  | nil => simp at h
  | cons c t ih =>
    have hbytes : bytes (c :: t) = String.utf8EncodeChar c ++ bytes t := rfl
    have hlength : (String.utf8EncodeChar c).length = c.utf8Size := by simp
    rw [hbytes] at h
    rcases List.append_eq_append_iff.1 h with ⟨m, rfl, hm⟩ | ⟨m, hm, hrest⟩
    · obtain ⟨hstart, hstop⟩ := ih hm
      rw [List.length_append, hlength, Nat.add_assoc]
      exact ⟨isBoundary_cons c hstart, isBoundary_cons c hstop⟩
    · cases m with
      | nil =>
        rw [List.append_nil] at hm
        have hbytes : bytes t = [] ++ b :: rest := hrest.symm
        obtain ⟨hstart, hstop⟩ := ih hbytes
        rw [← hm, hlength]
        exact ⟨isBoundary_cons c hstart, isBoundary_cons c hstop⟩
      | cons d m =>
        obtain ⟨rfl, -⟩ : b = d ∧ rest = m ++ bytes t := by simpa using hrest
        have hsingle := utf8EncodeChar_eq_singleton (c := c) (by simp [hm]) hb
        rw [hsingle] at hm hlength
        obtain ⟨rfl, -⟩ : front = [] ∧ m = [] := by
          cases front with
          | nil => simpa using hm
          | cons _ front => simp at hm
        exact ⟨isBoundary_zero _, isBoundary_iff.2 ⟨[c], t, rfl, by simpa using hlength.symm⟩⟩

lemma isBoundary_of_getElem? {t : Text} {n : Nat} {b : UInt8} (h : t.bytes[n]? = some b)
    (hb : b.toNat < 0x80) : t.isBoundary n ∧ t.isBoundary (n + 1) := by
  obtain ⟨hlt, rfl⟩ := List.getElem?_eq_some_iff.1 h
  have hsplit : t.bytes = t.bytes.take n ++ t.bytes[n] :: t.bytes.drop (n + 1) := by
    rw [List.getElem_cons_drop, List.take_append_drop]
  have hlength : (t.bytes.take n).length = n := List.length_take_of_le (Nat.le_of_lt hlt)
  have := isBoundary_of_bytes_eq hsplit hb
  rwa [hlength] at this

end Retouch.Text
