import Mathlib.Data.List.Induction
import Retouch.Literal.Encode
import Retouch.Prompt.Basic
import Retouch.Proofs.Literal.Escaping

/-! Prompts that are templates: each gap between two pieces is the inside of a hole. Such pieces come of
the texts between the holes, and are written into a literal by encoding these texts. -/
namespace Retouch

lemma Literal.escaping_cons_of_ne {c : Char} (h : c ≠ '\\') (t : Text) :
    Escaping (c :: t) ↔ Escaping t := by
  induction t using List.reverseRecOn with
  | nil => simp [Escaping, h]
  | append_singleton t d ih => rw [← List.cons_append, escaping_append_singleton, ih,
      escaping_append_singleton]

namespace Prompt

/-- Text that opens no hole, and has no carriage return. -/
structure IsPlain (t : Text) : Prop where
  noHole : ¬['$', '\x7b'] <:+: t
  noReturn : '\r' ∉ t

/-- Every piece but the last opens a hole at its end, every piece but the first closes one at its
beginning, and there are no other holes. -/
structure IsTemplate (pieces : List Text) : Prop where
  opens : ∀ piece ∈ pieces.dropLast,
    ∃ t, piece = t ++ ['$', '\x7b'] ∧ IsPlain t ∧ ¬Literal.Escaping t
  closes : ∀ piece ∈ pieces.tail, ∃ t, piece = '\x7d' :: t
  last : ∀ piece ∈ pieces.getLast?, IsPlain piece

/-- Pieces as they stand in a template literal: text is encoded, but for the signs that open holes. -/
def encodePieces : List Text → List Text
  | [] => []
  | [piece] => [Literal.encode .template piece]
  | piece :: pieces =>
    (Literal.encode .template (piece.take (piece.length - 2)) ++ ['$', '\x7b']) ::
      encodePieces pieces

/-- The prompt as it stands in a template literal where variables have some identifiers. -/
def written (p : Prompt) (identifier : Text → Text) : Text :=
  interleave (fun slot => identifier (p.slotText slot)) (encodePieces p.pieces) p.slots

/-! ## Texts between holes -/

/-- The pieces of a template with some texts before, between and after its holes. -/
def piecesOf (t : Text) : List Text → List Text
  | [] => [t]
  | u :: us => (t ++ ['$', '\x7b']) :: piecesOf ('\x7d' :: u) us

lemma piecesOf_ne_nil (t : Text) (us : List Text) : piecesOf t us ≠ [] := by
  cases us <;> exact List.cons_ne_nil _ _

lemma length_piecesOf (t : Text) (us : List Text) : (piecesOf t us).length = us.length + 1 := by
  induction us generalizing t with
  | nil => rfl
  | cons u us ih => rw [piecesOf, List.length_cons, ih, List.length_cons]

lemma IsPlain.of_cons {c : Char} {t : Text} (h : IsPlain (c :: t)) : IsPlain t :=
  ⟨fun hhole => h.noHole (hhole.trans (List.suffix_cons c t).isInfix),
    fun hreturn => h.noReturn (List.mem_cons_of_mem c hreturn)⟩

lemma IsTemplate.tail {piece : Text} {pieces : List Text} (h : IsTemplate (piece :: pieces)) :
    IsTemplate pieces := by
  cases pieces with
  | nil => exact ⟨nofun, nofun, nofun⟩
  | cons next pieces =>
    refine ⟨fun q hq => h.opens q (List.mem_cons_of_mem piece hq),
      fun q hq => h.closes q (List.mem_of_mem_tail hq), fun q hq => h.last q ?_⟩
    rwa [List.getLast?_cons_cons]

/-- Every template comes of texts, of which all but the last leave the sign after them unescaped. -/
lemma IsTemplate.exists_texts {pieces : List Text} (h : IsTemplate pieces) (hne : pieces ≠ []) :
    ∃ t us, pieces = piecesOf t us ∧ (∀ u ∈ t :: us, IsPlain u) ∧
      ∀ u ∈ (t :: us).dropLast, ¬Literal.Escaping u := by
  induction pieces with
  | nil => exact absurd rfl hne
  | cons piece pieces ih =>
    cases pieces with
    | nil => exact ⟨piece, [], rfl, by simpa using h.last piece rfl, nofun⟩
    | cons next pieces =>
      obtain ⟨t, rfl, hplain, hescaping⟩ := h.opens piece List.mem_cons_self
      obtain ⟨v, us, hpieces, hplains, hescapings⟩ := ih h.tail nofun
      obtain ⟨w, hw⟩ := h.closes next List.mem_cons_self
      -- the first text of the rest has the brace that closes the hole
      obtain ⟨u, rfl⟩ : ∃ u, v = '\x7d' :: u := by
        cases us with
        | nil =>
          cases hpieces
          exact ⟨w, hw⟩
        | cons x us =>
          obtain rfl : next = v ++ ['$', '\x7b'] := (List.cons.inj hpieces).1
          cases v with
          | nil => simp at hw
          | cons c v =>
            obtain ⟨rfl, -⟩ : c = '\x7d' ∧ v ++ ['$', '\x7b'] = w := by simpa using hw
            exact ⟨v, rfl⟩
      have hbrace : Literal.Escaping ('\x7d' :: u) ↔ Literal.Escaping u :=
        Literal.escaping_cons_of_ne (by decide) u
      refine ⟨t, u :: us, by rw [piecesOf, hpieces], ?_, ?_⟩
      · rw [List.forall_mem_cons] at hplains ⊢
        exact ⟨hplain, List.forall_mem_cons.2 ⟨hplains.1.of_cons, hplains.2⟩⟩
      · rw [List.dropLast_cons_cons, List.forall_mem_cons]
        refine ⟨hescaping, ?_⟩
        cases us with
        | nil => nofun
        | cons x us =>
          rw [List.dropLast_cons_cons, List.forall_mem_cons, hbrace] at hescapings
          rw [List.dropLast_cons_cons, List.forall_mem_cons]
          exact hescapings

section

variable {f : Nat → Text} {t u : Text} {us : List Text} {slot : Nat} {slots : List Nat}

lemma interleave_cons_of_ne_nil {piece : Text} {pieces : List Text} (h : pieces ≠ []) :
    interleave f (piece :: pieces) (slot :: slots) = piece ++ f slot ++ interleave f pieces slots := by
  cases pieces with
  | nil => exact absurd rfl h
  | cons next pieces => rfl

lemma interleave_piecesOf_cons (c : Char) (slots : List Nat) :
    interleave f (piecesOf (c :: t) us) slots = c :: interleave f (piecesOf t us) slots := by
  cases us with
  | nil => rfl
  | cons u us =>
    obtain ⟨next, pieces, hpieces⟩ := List.exists_cons_of_ne_nil (piecesOf_ne_nil ('\x7d' :: u) us)
    cases slots <;> simp [piecesOf, hpieces, interleave]

/-- A text and the hole after it. -/
lemma interleave_piecesOf :
    interleave f (piecesOf t (u :: us)) (slot :: slots) =
      t ++ '$' :: '\x7b' :: (f slot ++ '\x7d' :: interleave f (piecesOf u us) slots) := by
  rw [piecesOf, interleave_cons_of_ne_nil (piecesOf_ne_nil _ us), interleave_piecesOf_cons]
  simp

lemma encodePieces_piecesOf (t : Text) (us : List Text) :
    encodePieces (piecesOf t us) =
      piecesOf (Literal.encode .template t) (us.map (Literal.encode .template)) := by
  induction us generalizing t with
  | nil => rfl
  | cons u us ih =>
    have hrest := ih ('\x7d' :: u)
    have hbrace : Literal.encode .template ('\x7d' :: u) = '\x7d' :: Literal.encode .template u := rfl
    obtain ⟨next, pieces, hpieces⟩ := List.exists_cons_of_ne_nil (piecesOf_ne_nil ('\x7d' :: u) us)
    rw [hpieces] at hrest
    simp [piecesOf, hpieces, encodePieces, hrest, hbrace]

end

end Prompt
end Retouch
