import Stencil.Loader.FileSystem

/-!
# Paths that lead to the same place

If a path leads to a place, then its normal spelling leads there, too. So paths of files with one
normal spelling are paths of one file.

* `Path.parts_intercalate`: the parts of a path that is put together from parts;
* `FileSystem.follow_counting`: empty parts and single dots do not matter;
* `FileSystem.locate_normal`: the normal spelling of a path;
* `FileSystem.file?_normal`, `FileSystem.read?_normal`: the file there.
-/

namespace Stencil

namespace Path

variable {part : String} {ps : List String}

theorem partsFrom_eq (part l : List Char) :
    partsFrom part l = (l.splitOnPPrepend (· == '/') part).map String.ofList := by
  fun_induction partsFrom part l with
  | case1 part => simp
  | case2 part rest ih =>
    rw [List.splitOnPPrepend_cons_pos (by simp), List.map_cons, ih, List.splitOnPPrepend_nil_right]
  | case3 part c rest hc ih =>
    rw [List.splitOnPPrepend_cons_neg (by simpa using hc), ih]

theorem parts_eq (path : String) : parts path = (path.toList.splitOn '/').map String.ofList :=
  partsFrom_eq [] _

theorem slash_notMem_of_mem_partsFrom {start l : List Char} (hstart : '/' ∉ start)
    (h : part ∈ partsFrom start l) : '/' ∉ part.toList := by
  fun_induction partsFrom start l with
  | case1 start =>
    rw [List.mem_singleton.1 h]
    simpa using hstart
  | case2 start rest ih =>
    rcases List.mem_cons.1 h with rfl | h
    · simpa using hstart
    · exact ih List.not_mem_nil h
  | case3 start c rest hc ih =>
    exact ih (List.not_mem_cons_of_ne_of_not_mem (Ne.symm hc) hstart) h

theorem parts_intercalate (h : ∀ part ∈ ps, '/' ∉ part.toList) (hps : ps ≠ []) :
    parts ("/".intercalate ps) = ps := by
  have hsplit : List.splitOn '/' (['/'].intercalate (ps.map String.toList)) =
      ps.map String.toList :=
    List.splitOn_intercalate '/' (by simpa using h) (by simpa using hps)
  calc parts ("/".intercalate ps)
      = (List.splitOn '/' (['/'].intercalate (ps.map String.toList))).map String.ofList := by
        rw [parts_eq, String.toList_intercalate]
        rfl
    _ = (ps.map String.toList).map String.ofList := by rw [hsplit]
    _ = ps := by simp [Function.comp_def]

theorem parts_slash_append (s : String) : parts ("/" ++ s) = "" :: parts s := by
  simp [parts, partsFrom]

theorem slash_notMem_of_mem_components {path : String} (h : part ∈ components path) :
    '/' ∉ part.toList := by
  have hcounting (h : part ∈ (parts path).filter fun p => p ≠ "" ∧ p ≠ ".") : '/' ∉ part.toList :=
    slash_notMem_of_mem_partsFrom List.not_mem_nil (List.mem_filter.1 h).1
  unfold components at h
  split at h
  · rcases List.mem_cons.1 h with rfl | h
    · decide
    · exact hcounting h
  · exact hcounting h

end Path

namespace FileSystem

variable {fs : FileSystem} {place end' : Place} {path : String}

/-- A step from a directory into nothing or into the directory itself. -/
theorem follow_dot {part : String} (hpart : part = "" ∨ part = ".") (ps : List String)
    (hplace : fs.get? place = some .directory) :
    fs.follow place (part :: ps) = fs.follow place ps := by
  rw [follow, if_pos hplace, if_pos hpart]

/-- A path that leads somewhere leads there without its empty parts and single dots, too. -/
theorem follow_counting {ps : List String} (h : fs.follow place ps = some end') :
    fs.follow place (ps.filter fun p => p ≠ "" ∧ p ≠ ".") = some end' := by
  induction ps generalizing place with
  | nil => exact h
  | cons part ps ih =>
    by_cases hplace : fs.get? place = some .directory
    · by_cases hpart : part = "" ∨ part = "."
      · rw [follow_dot hpart ps hplace] at h
        rw [List.filter_cons_of_neg (by rcases hpart with rfl | rfl <;> simp)]
        exact ih h
      · obtain ⟨hempty, hdot⟩ := not_or.1 hpart
        rw [List.filter_cons_of_pos (by simp [hempty, hdot])]
        rw [follow, if_pos hplace, if_neg hpart] at h ⊢
        by_cases hup : part = ".."
        · rw [if_pos hup] at h ⊢
          exact ih h
        · rw [if_neg hup] at h ⊢
          by_cases hthere : (fs.get? (place ++ [part])).isSome
          · rw [if_pos hthere] at h ⊢
            exact ih h
          · rw [if_neg hthere] at h
            cases h
    · rw [follow, if_neg hplace] at h
      cases h

theorem follow_components (h : fs.locate path = some end') :
    fs.follow [] (Path.components path) = some end' := by
  unfold Path.components
  dsimp only
  split
  · rw [follow_dot (.inr rfl) _ rfl]
    exact follow_counting h
  · exact follow_counting h

/-- The normal spelling leads to the same place. -/
theorem locate_normal (h : fs.locate path = some end') :
    fs.locate (Path.normal path) = some end' := by
  have hcomponents := follow_components h
  have hrelative : fs.follow [] (Path.parts ("/".intercalate (Path.components path))) =
      some end' := by
    by_cases hnil : Path.components path = []
    · rw [hnil] at hcomponents ⊢
      exact (follow_dot (.inl rfl) [] rfl).trans hcomponents
    · rwa [Path.parts_intercalate (fun _ => Path.slash_notMem_of_mem_components) hnil]
  unfold locate Path.normal
  split
  · rw [Path.parts_slash_append, follow_dot (.inl rfl) _ rfl]
    exact hrelative
  · rwa [String.empty_append]

/-- The normal spelling of the path of a file is a path of the same file. -/
theorem file?_normal {file : List UInt8 × Int} (h : fs.file? path = some file) :
    fs.file? (Path.normal path) = some file := by
  cases hplace : fs.locate path with
  | none => simp [file?, hplace] at h
  | some place => rwa [file?, locate_normal hplace, ← hplace]

theorem read?_normal {file : List UInt8 × Int} (h : fs.file? path = some file) :
    fs.read? (Path.normal path) = fs.read? path := by
  rw [read?, read?, file?_normal h, h]

end FileSystem

end Stencil
