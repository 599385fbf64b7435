import Retouch.Prompt.Load
import Retouch.Proofs.Disk.Elsewhere
import Retouch.Proofs.Json.RoundTrip
import Retouch.Proofs.Machine.Footprint

/-! Ledgers in files. A ledger is read back from the text that is written for it, and saving makes its file
one of a single name, which work under other names leaves alone. -/
namespace Retouch.Ledger

open HasDisk Disk Retouch.Task

/-- A ledger is read back as it was, prompts without a hash among them. -/
theorem parse_render (ledger : Ledger) : parse ledger.render.bytes = .ok ledger :=
  Json.Read.decode_pretty_object ledger

/-- The file of a path holds a ledger and has no other name; without a file the ledger is empty. -/
def Kept (ledger : Ledger) (d : Disk) (p : Path) : Prop :=
  (∀ n, ¬d.Points p n) ∧ ledger = .empty ∨
    ∃ n, d.fileNumber p = .ok n ∧ d.Solitary p n ∧ (d.file n).bytes = ledger.render.bytes

variable {ledger found : Ledger} {d d' : Disk} {p q : Path}

namespace Kept

lemma of_elsewhere (h : Kept ledger d p) (helse : d.Elsewhere p d') : Kept ledger d' p := by
  rcases h with ⟨hnone, rfl⟩ | ⟨n, hn, halone, hbytes⟩
  · exact .inl ⟨helse.absent hnone, rfl⟩
  · obtain ⟨halone', hfile⟩ := helse.kept n halone
    exact .inr ⟨n, helse.fileNumber halone hn, halone', hfile ▸ hbytes⟩

lemma solitary (h : Kept ledger d p) {n : Nat} (hn : d.Points p n) : d.Solitary p n := by
  rcases h with ⟨hnone, -⟩ | ⟨m, -, halone, -⟩
  · exact absurd hn (hnone n)
  · rwa [hn.eq halone.points]

end Kept

variable {σ : Type} [HasDisk σ] [Host (StateM σ)] [Faithful σ] {s s' : σ}

/-- What is loaded is what has been kept. -/
lemma eq_of_load (h : Kept ledger (disk s) p) (hload : outcome (load p) s = (.ok found, s')) :
    found = ledger := by
  rw [load, outcome_bind, outcome_exists?] at hload
  dsimp only at hload
  split at hload
  · next hmissing =>
    cases hload
    rcases h with ⟨-, rfl⟩ | ⟨n, hn, -⟩
    · rfl
    · rw [kind?_eq_file.2 ⟨n, hn⟩] at hmissing
      cases hmissing
  · obtain ⟨bytes, s₁, hread, hparse⟩ := bind_eq_ok.1 hload
    obtain ⟨m, hm, hbytes⟩ := read_eq_ok.1 (Task.read_eq_ok _ _ hread).1
    rcases h with ⟨hnone, -⟩ | ⟨n, hn, -, hkept⟩
    · exact absurd (fileNumber_eq_ok.1 hm).2 (hnone m)
    · obtain rfl : m = n := Except.ok.inj (hm.symm.trans hn)
      rw [← hbytes, hkept, parse_render] at hparse
      cases hparse
      rfl

/-- Saving writes nothing but the file, and the ledger is kept there. -/
lemma save_eq_ok (h : Kept ledger (disk s) p) (hsave : outcome (found.save p) s = (.ok (), s')) :
    Kept found (disk s') p := by
  obtain ⟨u, s₁, hfolder, hwrite⟩ := bind_eq_ok.1 hsave
  obtain ⟨hwhole, -⟩ := request_eq_ok (Faithful.write p found.render.bytes) hwrite
  have hfirst := ((within_createFolderOf p).leads hfolder).1
  have h₁ := h.of_elsewhere (.of_touches hfirst fun q hq => absurd hq List.not_mem_nil)
  obtain ⟨n, hn, halone, hfile⟩ := (write_eq_ok hwhole).solitary fun n => h₁.solitary
  exact .inr ⟨n, hn, halone, by rw [hfile]⟩

/-- Loading gives the ledger, unless a folder is in the place of its file: then it is empty. -/
def Loads (s : Machine) (p : Path) (ledger : Ledger) : Prop :=
  outcome (load p) s = (.ok ledger, s) ∨ (disk s).kind? p = some .folder ∧ ledger = .empty

/-- A file with the text of a ledger is loaded as that ledger. -/
lemma outcome_load {s : Machine} (h : (disk s).read p = .ok ledger.render.bytes) :
    outcome (load p) s = (.ok ledger, s) := by
  obtain ⟨n, hn, -⟩ := read_eq_ok.1 h
  rw [load, outcome_bind, outcome_exists?, kind?_eq_file.2 ⟨n, hn⟩]
  dsimp only
  rw [Option.isSome_some, Bool.not_true, if_neg Bool.false_ne_true, outcome_bind_of_ok (outcome_read _ _ h),
    parse_render]
  rfl

lemma Kept.loads {s : Machine} (h : Kept ledger (disk s) p) : Loads s p ledger := by
  rcases h with ⟨hnone, rfl⟩ | ⟨n, hn, -, hbytes⟩
  · cases hkind : (disk s).kind? p with
    | none =>
      left
      rw [load, outcome_bind, outcome_exists?, hkind]
      rfl
    | some kind =>
      cases kind with
      | folder => exact .inr ⟨hkind, rfl⟩
      | file =>
        obtain ⟨n, hn⟩ := kind?_eq_file.1 hkind
        exact absurd (fileNumber_eq_ok.1 hn).2 (hnone n)
  · exact .inl (outcome_load (read_eq_ok.2 ⟨n, hn, hbytes⟩))

end Retouch.Ledger
