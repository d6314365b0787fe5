import MessagePattern.File.Output
import MessagePattern.File.Tree
import MessagePattern.Proofs.Answer

/-!
# Files that are stored

Whether a text can be delivered hangs on its path alone (`exists_store_iff`). What a storage does
with a content is its own affair, and there are files that forget it; a path is one that keeps what
is written to it if the content is read again under it. In a tree of files every path that can be
written to is one (`Tree.keeps_of_write`), for what it leads to hangs on the folders only.
-/

namespace MessagePattern.File

section

variable {σ : Type} [Storage σ]

/-- A path that something can be written to: that of the standard output, or one that names a file
to the storage. -/
def Takes (files : σ) (path : String) : Prop :=
  path = standard ∨ ∃ store, Storage.write files path = .ok store

/-- A path under which any content that is written to it is read again. -/
def Keeps (files : σ) (path : String) : Prop :=
  ∃ store, Storage.write files path = .ok store ∧
    ∀ content, Storage.read (store content) path = .ok content

variable {files : σ} {path : String}

/-- Whether a text can be delivered hangs on the path alone. -/
theorem exists_store_iff {text : String} :
    (∃ files', (deliverText text path).store files = .ok files') ↔ Takes files path := by
  unfold deliverText Takes
  by_cases hpath : path = standard
  · rw [if_pos hpath]
    exact ⟨fun _ => Or.inl hpath, fun _ => ⟨files, rfl⟩⟩
  · rw [if_neg hpath]
    constructor
    · rintro ⟨files', hstore⟩
      obtain ⟨store, hwrite, _⟩ := bind_eq_ok_iff.mp hstore
      exact Or.inr ⟨store, mapError_eq_ok_iff.mp hwrite⟩
    · rintro (hstandard | ⟨store, hwrite⟩)
      · exact absurd hstandard hpath
      · exact ⟨_, bind_eq_ok_iff.mpr ⟨store, mapError_eq_ok_iff.mpr hwrite, rfl⟩⟩

end

/-! ## Trees -/

namespace Tree

variable {t : Tree} {path : String}

@[simp] theorem isFolder_files (files : Table Place (List UInt8)) (place : Place) :
    isFolder { t with files } place = t.isFolder place := rfl

/-- A file is written where its path leads to a name that is not too long and no folder has. -/
theorem write_eq_ok_iff {store : List UInt8 → Tree} : t.write path = .ok store ↔
    ∃ place, t.target path = .ok (.entry place false) ∧ isTooLong place = false ∧
      t.isFolder place = false ∧
      store = fun content => { t with files := t.files.set place content } := by
  constructor
  · intro h
    obtain ⟨reached, htarget, h⟩ := bind_eq_ok_iff.mp h
    match reached, htarget, h with
    | .entry place false, htarget, h =>
        simp only [Bool.false_eq_true, if_false] at h
        split at h
        · cases h
        rename_i hlong
        split at h
        · cases h
        rename_i hfolder
        cases h
        exact ⟨place, htarget, Bool.eq_false_iff.mpr hlong, Bool.eq_false_iff.mpr hfolder, rfl⟩
  · rintro ⟨place, htarget, hlong, hfolder, rfl⟩
    unfold write
    rw [htarget]
    simp only [bind, Except.bind, hlong, hfolder]
    rfl

/-- What the names of a path lead to, if they lead anywhere, does not hang on the files. -/
theorem follow_eq_ok {place : Place} {names : List (List Char)} {reached : Target}
    (files : Table Place (List UInt8)) (h : t.follow place names = .ok reached) :
    follow { t with files } place names = .ok reached := by
  induction names generalizing place with
  | nil => exact h
  | cons name rest ih =>
      by_cases hself : isSelf name = true
      · rw [follow, if_pos hself] at h ⊢
        exact ih h
      by_cases hparent : name = ['.', '.']
      · rw [follow, if_neg hself, if_pos hparent] at h ⊢
        exact ih h
      rw [follow, if_neg hself, if_neg hparent] at h ⊢
      simp only at h ⊢
      by_cases hlast : rest.all List.isEmpty = true
      · rwa [if_pos hlast] at h ⊢
      rw [if_neg hlast] at h ⊢
      by_cases hlong : isTooLong (place ++ [String.ofList name]) = true
      · rw [if_pos hlong] at h
        cases h
      rw [if_neg hlong] at h ⊢
      by_cases hfolder : t.isFolder (place ++ [String.ofList name]) = true
      · rw [if_pos hfolder] at h
        rw [isFolder_files, if_pos hfolder]
        exact ih h
      · rw [if_neg hfolder] at h
        split at h <;> cases h

theorem target_eq_ok {reached : Target} (files : Table Place (List UInt8))
    (h : t.target path = .ok reached) : target { t with files } path = .ok reached := by
  unfold target at h ⊢
  simp only at h ⊢
  split at h
  · cases h
  rename_i hnull
  split at h
  · cases h
  rename_i hempty
  split at h
  · cases h
  rename_i hlong
  rw [if_neg hnull, if_neg hempty, if_neg hlong]
  exact follow_eq_ok files h

/-- What was written under a path is read under it. -/
theorem keeps_of_write {store : List UInt8 → Tree} (h : t.write path = .ok store) :
    Keeps t path := by
  refine ⟨store, h, fun content => ?_⟩
  obtain ⟨place, htarget, hlong, hfolder, rfl⟩ := write_eq_ok_iff.mp h
  show read _ path = _
  unfold read
  rw [target_eq_ok _ htarget]
  simp only [bind, Except.bind, isFolder_files, hlong, hfolder, Table.get?_set]
  rfl

end Tree

end MessagePattern.File
