import Retouch.Proofs.Installation.Replace

/-! The phases of a cycle. It prepares new bytes, which touches nothing but the backup; it replaces the
bundle; and then it keeps its books, which are the hashes and the history. -/
namespace Retouch

open HasDisk Retouch.Task

variable {σ : Type} [HasDisk σ] [Host (StateM σ)] [Faithful σ]

lemma Ledger.within_load (ps : List Path) (p : Path) : Within (σ := σ) ps (Ledger.load p) := by
  refine .bind (within_exists? p) fun found => .ite (.pure ps _) ?_
  refine .bind (within_read p _) fun bytes => ?_
  split
  · exact .pure ps _
  · exact .fail ps _

lemma Ledger.within_save (ledger : Ledger) (p : Path) : Within (σ := σ) [p] (ledger.save p) :=
  .bind ((within_createFolderOf p).mono (List.nil_subset _)) fun _ => within_write p _ _

namespace History

lemma within_trim (p : Path) : Within (σ := σ) [p] (trim p) := by
  refine .bind (within_readText p _) fun t => ?_
  split
  · exact .pure [p] _
  · exact within_write p _ _

lemma within_record (folder : Path) (e : HistoryEntry) :
    Within (σ := σ) [folder.join fileName] (record folder e) := by
  refine .bind (.ask fun s => .of_looks Faithful.now _ s) fun time => ?_
  refine .bind ((within_createFolders folder _).mono (List.nil_subset _)) fun _ => ?_
  exact .bind (.request (leads_append _ _) _) fun _ => within_trim _

end History

namespace Installation

def log (i : Installation) : Path := i.folder.join History.fileName

/-- The files that are written after the bundle. -/
def books (i : Installation) : List Path := [i.appliedLedger, i.referenceLedger, i.log]

section Parts

variable {m : Type → Type} [Monad m] [Host m]

/-- The bundle as it is to be, and what there is to report. -/
def prepare (i : Installation) (c : Cycle) (dryRun : Bool) : Task m (Bundle × Cycle.Report) := do
  let source ← i.source dryRun
  let bundle ← Task.ofExcept (decode source (← Task.read "pristine source" source))
  let (text, report) ← runOn c bundle.text
  return ({ bundle with text }, report)

def keepBooks (i : Installation) (c : Cycle) (r : Cycle.Report) : Task m Unit := do
  i.savePrompts c.prompts r
  History.record i.folder (i.historyEntry r)

/-- Forgets which prompts were applied. -/
def forget (i : Installation) : Task m Unit := do
  let _ ← Ledger.load (m := m) i.appliedLedger
  Ledger.save .empty i.appliedLedger
  History.record i.folder (.bare "restore" i.target)

theorem apply_eq [LawfulMonad m] (i : Installation) (c : Cycle) (dryRun : Bool) :
    i.apply (m := m) c dryRun = do
      let (bundle, report) ← i.prepare c dryRun
      if dryRun then return report
      replaceFile i.target bundle.encode
      i.keepBooks c report
      return report := by
  simp only [apply, prepare, keepBooks, bind_assoc, pure_bind]

end Parts

variable (i : Installation) (c : Cycle)

lemma within_copyWithFolder (source target : Path) :
    Within (σ := σ) [target] (copyWithFolder source target) :=
  .bind ((within_createFolderOf target).mono (List.nil_subset _)) fun _ =>
    .request (leads_copy source target) _

lemma within_keepBackup : Within (σ := σ) [i.backup] i.keepBackup := by
  refine .bind (within_isFile _) fun found => .ite (within_copyWithFolder _ _) ?_
  refine .bind (within_read _ _) fun current => .bind (within_read _ _) fun pristine => ?_
  exact .ite (within_copyWithFolder _ _) (.pure _ _)

lemma within_source (dryRun : Bool) : Within (σ := σ) [i.backup] (i.source dryRun) :=
  .ite (.bind (within_isFile _) fun _ => .pure _ _)
    (.bind (within_keepBackup i) fun _ => .pure _ _)

lemma within_runOn (ps : List Path) (t : Text) : Within (σ := σ) ps (runOn c t) := by
  refine .bind (.ofExcept ps _) fun (done, report) => .bind ?_ fun _ => .pure ps _
  induction done.messages with
  | nil => exact .pure ps _
  | cons message messages ih =>
    exact .bind (.ask fun s => .of_looks (Faithful.report message) ps s) fun _ => ih

/-- Nothing is written in preparing but where the source of the bytes is looked for. -/
lemma leads_prepare {ps : List Path} {dryRun : Bool} {s : σ}
    (h : Leads ps s (outcome (i.source dryRun) s).2) :
    Leads ps s (outcome (i.prepare c dryRun) s).2 := by
  refine leads_bind h fun source => .bind (within_read _ _) fun bytes => ?_
  exact .bind (.ofExcept _ _) fun bundle => .bind (within_runOn c _ _) fun _ => .pure _ _

theorem within_prepare (dryRun : Bool) : Within (σ := σ) [i.backup] (i.prepare c dryRun) :=
  fun s => leads_prepare i c (within_source i dryRun s)

/-- A dry run writes nothing. -/
theorem within_dryRun : Within (σ := σ) [] (i.apply c true) := by
  rw [apply_eq]
  exact fun s => leads_bind (leads_prepare i c (leads_bind (within_isFile _ s) fun _ => .pure _ _))
    fun _ => .pure _ _

lemma within_savePrompts (ps : List Prompt) (r : Cycle.Report) :
    Within (σ := σ) i.books (i.savePrompts ps r) := by
  refine .ite (.pure _ _) (.bind (Ledger.within_load _ _) fun applied => ?_)
  refine .bind (Ledger.within_load _ _) fun reference => ?_
  refine .bind ((Ledger.within_save _ _).mono ?_) fun _ => (Ledger.within_save _ _).mono ?_
  · simp [books]
  · simp [books]

theorem within_keepBooks (r : Cycle.Report) : Within (σ := σ) i.books (i.keepBooks c r) :=
  .bind (within_savePrompts i _ r) fun _ =>
    (History.within_record _ _).mono (by simp [books, log])

theorem within_forget : Within (σ := σ) i.books i.forget := by
  refine .bind (Ledger.within_load _ _) fun _ => .bind ((Ledger.within_save _ _).mono ?_) fun _ =>
    (History.within_record _ _).mono ?_
  · simp [books]
  · simp [books, log]

end Installation
end Retouch
