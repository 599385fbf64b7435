import Retouch.Proofs.Disk.Touches

/-! Work that is done elsewhere. A file of a single name is reached under that name alone, so whatever is
done under other names leaves it as it is: writing, renaming, and making folders. -/
namespace Retouch.Disk

/-- The path is the one name of a file. -/
structure Solitary (d : Disk) (p : Path) (n : Nat) : Prop where
  points : d.Points p n
  alone : ∀ q, d.entry? q = some (.file n) → q = d.destination p

/-- A file of no other name than the path is as before, and if there is no file there is none still. -/
structure Elsewhere (p : Path) (d d' : Disk) : Prop where
  base : d'.base = d.base
  folders : ∀ q, d.IsFolder q → d'.IsFolder q
  absent : (∀ n, ¬d.Points p n) → ∀ n, ¬d'.Points p n
  kept : ∀ n, d.Solitary p n → d'.Solitary p n ∧ d'.file n = d.file n

variable {d d₁ d' : Disk} {ps : List Path} {p q old new : Path} {n : Nat} {f : File}

namespace Elsewhere

lemma refl (p : Path) (d : Disk) : Elsewhere p d d :=
  ⟨rfl, fun _ h => h, fun h => h, fun _ h => ⟨h, rfl⟩⟩

lemma trans (h₁ : Elsewhere p d d₁) (h₂ : Elsewhere p d₁ d') : Elsewhere p d d' where
  base := h₂.base.trans h₁.base
  folders q hq := h₂.folders q (h₁.folders q hq)
  absent h := h₂.absent (h₁.absent h)
  kept n hn := by
    obtain ⟨hn₁, hfile₁⟩ := h₁.kept n hn
    obtain ⟨hn', hfile'⟩ := h₂.kept n hn₁
    exact ⟨hn', hfile'.trans hfile₁⟩

lemma destination (h : Elsewhere p d d') (q : Path) : d'.destination q = d.destination q :=
  destination_congr h.base q

lemma fileNumber (h : Elsewhere p d d') (hn : d.Solitary p n) (hp : d.fileNumber p = .ok n) :
    d'.fileNumber p = .ok n := by
  rw [fileNumber_eq_ok, h.destination]
  exact ⟨locate_of_folders h.base h.folders (fileNumber_eq_ok.1 hp).1, (h.kept n hn).1.points⟩

/-- Writing under paths that lead to other places. -/
lemma of_touches (h : Touches ps d d') (hps : ∀ q ∈ ps, d.destination q ≠ d.destination p) :
    Elsewhere p d d' := by
  have hnew {n : Nat} (hn : d'.entry? (d.destination p) = some (.file n)) : d.Points p n :=
    (h.fresh _ _ hn).resolve_right fun ⟨⟨q, hq, heq⟩, _⟩ => hps q hq heq.symm
  refine ⟨h.base, h.folders, fun hnone n hn => ?_, fun n hn => ⟨⟨h.points hn.points, fun q hq => ?_⟩, ?_⟩⟩
  · rw [Points, h.destination] at hn
    exact hnone n (hnew hn)
  · rw [h.destination]
    rcases h.fresh q n hq with hold | ⟨-, hunnamed⟩
    · exact hn.alone q hold
    · exact absurd ⟨_, hn.points⟩ hunnamed
  · exact h.contents n ⟨_, hn.points⟩ fun q hq hpoints => hps q hq (hn.alone _ hpoints)

/-- Renaming from another place to another place. -/
lemma of_rename (h : d.rename old new = .ok d') (hold : d.fileNumber old = .ok n)
    (holdPlace : d.destination old ≠ d.destination p) (hnewPlace : d.destination new ≠ d.destination p) :
    Elsewhere p d d' := by
  obtain ⟨-, hfree, ⟨-, rfl⟩ | ⟨-, rfl⟩⟩ := rename_eq_ok h hold
  · exact .refl p _
  · have hentry := (fileNumber_eq_ok.1 hold).2
    have hfile := not_isFolder_of_file hentry
    have hmove := entry?_move (d := d) (ne_nil_of_not_isFolder hfile) (ne_nil_of_not_isFolder hfree) n
    have hplace : entry? (d.move (d.destination old) (d.destination new) n) (d.destination p) =
        d.entry? (d.destination p) := by
      rw [hmove, if_neg hnewPlace.symm, if_neg holdPlace.symm]
    refine ⟨rfl, fun q => isFolder_move hfile hfree, fun hnone m hm => hnone m (hplace.symm.trans hm),
      fun m hm => ⟨⟨?_, fun q hq => ?_⟩, rfl⟩⟩
    · exact hplace.trans hm.points
    · rw [hmove] at hq
      split at hq
      · cases hq
        exact absurd (hm.alone _ hentry) holdPlace
      · split at hq
        · cases hq
        · exact hm.alone q hq

end Elsewhere

/-- What is stored under a path is the file of that one name, if there was no file of other names. -/
lemma Stored.solitary (h : Stored d p f d') (halone : ∀ n, d.Points p n → d.Solitary p n) :
    ∃ n, d'.fileNumber p = .ok n ∧ d'.Solitary p n ∧ d'.file n = f := by
  refine ⟨_, h.fileNumber, ⟨(fileNumber_eq_ok.1 h.fileNumber).2, fun q hq => ?_⟩, ?_⟩
  · rw [h.touches.destination]
    rw [h.entry_eq] at hq
    split at hq
    · next heq => exact heq
    · rcases h.numberAt with hold | ⟨-, hnew⟩
      · exact (halone _ hold).alone q hq
      · exact absurd ⟨q, hq⟩ hnew
  · rw [h.file, if_pos rfl]

end Retouch.Disk
