import Mathlib.Data.List.TakeDrop
import Linewise.FileSystem

/-!
# Places of a file system

Putting something at a place shows there and nowhere else, and a path that leads to
a file or a device names the place where it is.

## Main results

* `FileSystem.entry?_put`, `FileSystem.entry?_put_of_ne`: what is at a place afterwards
* `FileSystem.entry?_of_follow`: a path leads to what is there
* `FileSystem.ne_nil_of_follow_free`: a free place is not the root
-/

namespace Linewise.FileSystem

/-! ## Putting -/

theorem find?_setEntry (place : Place) (entry : Entry) (entries : List (Place × Entry)) :
    (setEntry place entry entries).find? (fun other => other.1 = place) = some (place, entry) := by
  induction entries with
  | nil => simp [setEntry]
  | cons other rest ih =>
    simp only [setEntry]
    split_ifs with h
    · simp
    · rw [List.find?_cons_of_neg (by simpa using h)]
      exact ih

theorem find?_setEntry_of_ne {place place' : Place} (h : place' ≠ place) (entry : Entry)
    (entries : List (Place × Entry)) :
    (setEntry place entry entries).find? (fun other => other.1 = place')
      = entries.find? (fun other => other.1 = place') := by
  induction entries with
  | nil => simp [setEntry, h.symm]
  | cons other rest ih =>
    simp only [setEntry]
    split_ifs with hother
    · rw [List.find?_cons_of_neg (by simpa using h.symm),
        List.find?_cons_of_neg (by simpa [hother] using h.symm)]
    · by_cases hp : other.1 = place'
      · rw [List.find?_cons_of_pos (by simpa using hp), List.find?_cons_of_pos (by simpa using hp)]
      · rw [List.find?_cons_of_neg (by simpa using hp), List.find?_cons_of_neg (by simpa using hp)]
        exact ih

/-- What was put at a place is there. -/
theorem entry?_put (files : FileSystem) {place : Place} (h : place ≠ []) (entry : Entry) :
    entry? (files.put place entry) place = some entry := by
  simp [put, h, find?_setEntry, entry?]

/-- **Nothing else changes** when something is put at a place. -/
theorem entry?_put_of_ne (files : FileSystem) {place place' : Place} (h : place' ≠ place)
    (entry : Entry) : entry? (files.put place entry) place' = files.entry? place' := by
  simp only [put, find?_setEntry_of_ne h, entry?]

/-! ## Following -/

/-- Names that lead to a file or a device name the place where it is. -/
theorem entry?_of_walk {files : FileSystem} {place : Place} {names : List Bytes}
    {target : Place} {entry : Entry}
    (h : files.walk place names = .ok (.taken target entry)) (hd : entry ≠ .directory) :
    target ≠ [] ∧ files.entry? target = some entry := by
  -- The way ends at a directory, goes on from another one, ends at what is looked for, or fails.
  fun_induction walk files place names with
  | case1 place =>
    simp only [Except.ok.injEq, Destination.taken.injEq] at h
    exact absurd h.2.symm hd
  | case2 place rest ih => exact ih h
  | case3 place rest _ ih => exact ih h
  | case4 => simp at h
  | case5 place name rest _ _ _ _ ih => exact ih h
  | case6 place name rest _ _ _ there _ hthere =>
    simp only [Except.ok.injEq, Destination.taken.injEq] at h
    obtain ⟨rfl, rfl⟩ := h
    exact ⟨by simp, hthere⟩
  | case7 => simp at h
  | case8 => simp at h
  | case9 => simp at h

/-- **A path that leads to a file or a device leads to what is there.** -/
theorem entry?_of_follow {files : FileSystem} {path : Bytes} {place : Place} {entry : Entry}
    (h : files.follow path = .ok (.taken place entry)) (hd : entry ≠ .directory) :
    place ≠ [] ∧ files.entry? place = some entry := by
  rw [follow] at h
  split_ifs at h
  exact entry?_of_walk h hd

/-- Names that lead to a free place lead past the root. -/
theorem ne_nil_of_walk_free {files : FileSystem} {place : Place} {names : List Bytes}
    {target : Place} (h : files.walk place names = .ok (.free target)) : target ≠ [] := by
  fun_induction walk files place names with
  | case1 place => simp at h
  | case2 place rest ih => exact ih h
  | case3 place rest _ ih => exact ih h
  | case4 => simp at h
  | case5 place name rest _ _ _ _ ih => exact ih h
  | case6 => simp at h
  | case7 => simp at h
  | case8 place name rest =>
    obtain rfl : place ++ [name] = target := by simpa using h
    simp
  | case9 => simp at h

/-- **A free place is not the root.** -/
theorem ne_nil_of_follow_free {files : FileSystem} {path : Bytes} {place : Place}
    (h : files.follow path = .ok (.free place)) : place ≠ [] := by
  rw [follow] at h
  split_ifs at h
  exact ne_nil_of_walk_free h

end Linewise.FileSystem
