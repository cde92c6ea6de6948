import EventForge.Java.ContextFiles

/-!
# Collecting files

Files and failures are only ever added (`Grows`), a file only when no file has its path yet; so the
paths of the files that are kept differ from each other, and every file that was made has a file at
its path.
-/

namespace EventForge.Java.ContextFiles

variable {fs fs' fs'' : ContextFiles} {f file : SourceFile} {name : String}
  {result : List Diagnostic × Except ResolveFault SourceFile}

theorem same_refl (p : Path) : p.same p := by
  simp [Path.same]

theorem mem_files_add (h : f ∈ (fs.add file).files) : f ∈ fs.files ∨ f = file := by
  rw [add] at h
  split at h
  · simpa using h
  · split at h <;> exact .inl h

theorem files_subset_add (fs : ContextFiles) (file : SourceFile) :
    fs.files ⊆ (fs.add file).files := by
  rw [add]
  split
  · exact List.subset_append_left _ _
  · split <;> exact fun _ h => h

theorem failed_add (fs : ContextFiles) (file : SourceFile) : (fs.add file).failed = fs.failed := by
  rw [add]
  split
  · rfl
  · split <;> rfl

/-- A file that is new after adding a class is the class that was made. -/
theorem mem_files_addClass (h : f ∈ (fs.addClass name result).files) :
    f ∈ fs.files ∨ result.2 = .ok f := by
  rw [addClass] at h
  split at h
  · next file hfile =>
    rcases mem_files_add h with h | rfl
    · exact .inl h
    · exact .inr hfile
  · exact .inl h

/-- A failure that is new after adding a class is that of the class. -/
theorem mem_failed_addClass {x : FailedFile} (h : x ∈ (fs.addClass name result).failed) :
    x ∈ fs.failed ∨ ∃ fault, result.2 = .error fault ∧ x = ⟨name, fault.message⟩ := by
  rw [addClass] at h
  split at h
  · rw [failed_add] at h
    exact .inl h
  · next fault hfault =>
    rcases List.mem_append.1 h with h | h
    · exact .inl h
    · exact .inr ⟨fault, hfault, List.mem_singleton.1 h⟩

/-- The path of a file is taken once the file was added. -/
theorem exists_same_add (fs : ContextFiles) (file : SourceFile) :
    ∃ g ∈ (fs.add file).files, g.path.same file.path := by
  rw [add]
  split
  · exact ⟨file, by simp, same_refl _⟩
  · next kept hkept =>
    have hmem := List.mem_of_find?_eq_some hkept
    have hsame : kept.path.same file.path := by simpa using List.find?_some hkept
    split <;> exact ⟨kept, hmem, hsame⟩

/-- Files and failures that are only added to. -/
structure Grows (fs fs' : ContextFiles) : Prop where
  files : fs.files ⊆ fs'.files
  failed : fs.failed ⊆ fs'.failed

theorem Grows.refl (fs : ContextFiles) : Grows fs fs := ⟨fun _ h => h, fun _ h => h⟩

theorem Grows.trans (h : Grows fs fs') (h' : Grows fs' fs'') : Grows fs fs'' :=
  ⟨List.Subset.trans h.files h'.files, List.Subset.trans h.failed h'.failed⟩

theorem grows_add (fs : ContextFiles) (file : SourceFile) : Grows fs (fs.add file) :=
  ⟨files_subset_add fs file, by rw [failed_add]; exact fun _ h => h⟩

theorem grows_addClass (fs : ContextFiles) (name : String)
    (result : List Diagnostic × Except ResolveFault SourceFile) :
    Grows fs (fs.addClass name result) := by
  rw [addClass]
  split
  · next file _ =>
    have h := grows_add { fs with diagnostics := fs.diagnostics ++ result.1 } file
    exact ⟨h.files, h.failed⟩
  · exact ⟨fun _ h => h, List.subset_append_left _ _⟩

/-- No two files have the same path. -/
def Distinct (fs : ContextFiles) : Prop := fs.files.Pairwise fun f g => ¬ f.path.same g.path

theorem Distinct.add (h : fs.Distinct) (file : SourceFile) : (fs.add file).Distinct := by
  rw [ContextFiles.add]
  split
  · next hnone =>
    have hnew : ∀ f ∈ fs.files, ¬ f.path.same file.path := by simpa using hnone
    refine List.pairwise_append.2 ⟨h, List.pairwise_singleton _ _, fun f hf g hg => ?_⟩
    rw [List.mem_singleton.1 hg]
    exact hnew f hf
  · split <;> exact h

theorem Distinct.addClass (h : fs.Distinct) (name : String)
    (result : List Diagnostic × Except ResolveFault SourceFile) :
    (fs.addClass name result).Distinct := by
  have hmade : { fs with diagnostics := fs.diagnostics ++ result.1 }.Distinct := h
  rw [ContextFiles.addClass]
  split
  · exact hmade.add _
  · exact h

/-- Nothing worse than a warning was noticed. -/
def Warns (fs : ContextFiles) : Prop := ∀ x ∈ fs.diagnostics, x.isWarning

theorem Warns.add (h : fs.Warns) (file : SourceFile) : (fs.add file).Warns := by
  rw [ContextFiles.add]
  split
  · exact h
  · split
    · exact h
    · intro x hx
      rcases List.mem_append.1 hx with hx | hx
      · exact h x hx
      · rw [List.mem_singleton.1 hx]
        rfl

theorem Warns.addClass (h : fs.Warns) (hresult : ∀ x ∈ result.1, x.isWarning) :
    (fs.addClass name result).Warns := by
  have hmade : { fs with diagnostics := fs.diagnostics ++ result.1 }.Warns :=
    List.forall_mem_append.2 ⟨h, hresult⟩
  rw [ContextFiles.addClass]
  split
  · exact hmade.add _
  · exact hmade

end EventForge.Java.ContextFiles
