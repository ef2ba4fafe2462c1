import Mathlib.Data.List.Basic

/-!
# POSIX paths

A path is resolved by going through its segments: empty ones and `.` say nothing, and `..` takes the last one back. A plain
name after a directory is an entry of the directory (`resolveSegments_plain`).
-/

namespace PosixPath

/-! ## Segments -/

abbrev Segment := List Char

/-- The parts between the slashes. -/
def parts : List Char → List Segment
  | [] => [[]]
  | c :: path =>
    if c = '/' then [] :: parts path
    else
      match parts path with
      | [] => [[c]]
      | segment :: segments => (c :: segment) :: segments

def push (resolved : List Segment) (segment : Segment) : List Segment :=
  if segment = [] ∨ segment = ['.'] then resolved
  else if segment = ['.', '.'] then resolved.dropLast
  else resolved ++ [segment]

def segments (path : List Char) : List Segment := (parts path).foldl push []

/-- The text of an absolute path. -/
def render (segments : List Segment) : List Char :=
  if segments = [] then ['/'] else segments.flatMap ('/' :: ·)

/-- A name that is a segment of its own. -/
structure Plain (name : Segment) : Prop where
  nonempty : name ≠ []
  whole : '/' ∉ name
  notDot : name ≠ ['.']
  notDots : name ≠ ['.', '.']

variable {name name' : Segment} {dir path : List Char}

theorem parts_ne_nil (path : List Char) : parts path ≠ [] := by
  cases path with
  | nil => exact List.cons_ne_nil _ _
  | cons c path =>
    rw [parts]
    split
    · exact List.cons_ne_nil _ _
    · split <;> exact List.cons_ne_nil _ _

theorem parts_slash (dir path : List Char) : parts (dir ++ '/' :: path) = parts dir ++ parts path := by
  induction dir with
  | nil =>
    show parts ('/' :: path) = [] :: parts path
    rw [parts, if_pos rfl]
  | cons c dir ih =>
    rw [List.cons_append, parts, ih, parts]
    by_cases hc : c = '/'
    · rw [if_pos hc, if_pos hc, List.cons_append]
    · rw [if_neg hc, if_neg hc]
      obtain ⟨segment, rest, hparts⟩ := List.exists_cons_of_ne_nil (parts_ne_nil dir)
      rw [hparts]
      rfl

theorem parts_whole (h : '/' ∉ path) : parts path = [path] := by
  induction path with
  | nil => rfl
  | cons c path ih =>
    obtain ⟨hc, hpath⟩ := not_or.1 (List.mem_cons.not.1 h)
    rw [parts, if_neg (Ne.symm hc), ih hpath]

theorem push_plain (h : Plain name) (resolved : List Segment) : push resolved name = resolved ++ [name] := by
  rw [push, if_neg (not_or.2 ⟨h.nonempty, h.notDot⟩), if_neg h.notDots]

/-- A slash at the end says nothing. -/
theorem segments_slash (path : List Char) : segments (path ++ ['/']) = segments path := by
  rw [segments, parts_slash, List.foldl_append]
  rfl

/-- **A plain name** after a directory, with a slash at its end or without. -/
theorem segments_plain (h : Plain name) : segments (dir ++ '/' :: (name ++ ['/'])) = segments dir ++ [name] := by
  rw [segments, parts_slash, parts_slash, parts_whole h.whole, List.foldl_append, List.foldl_append, List.foldl_cons,
    List.foldl_nil, push_plain h]
  rfl

/-! ## `path.resolve` -/

/-- What is resolved: the arguments from the last back to the first absolute one, the last at the end. -/
def joined : List (List Char) → List Char → List Char × Bool
  | [], later => (later, false)
  | path :: earlier, later =>
    if path = [] then joined earlier later
    else if path.head? = some '/' then (path ++ '/' :: later, true)
    else joined earlier (path ++ '/' :: later)

/-- The arguments resolved, in the working directory if none is absolute. -/
def resolveSegments (cwd : List Char) (paths : List (List Char)) : List Segment :=
  let (path, absolute) := joined paths.reverse []
  segments (if absolute then path else cwd ++ '/' :: path)

/-- The directory and the name in it. -/
theorem resolveSegments_plain (cwd : List Char) (h : Plain name) :
    resolveSegments cwd [dir, name] = resolveSegments cwd [dir] ++ [name] := by
  have hhead : name.head? ≠ some '/' := fun hslash => h.whole (List.mem_of_mem_head? hslash)
  rw [resolveSegments, resolveSegments]
  simp only [List.reverse_cons, List.reverse_nil, List.nil_append, List.singleton_append, joined, h.nonempty, hhead,
    if_false]
  by_cases hempty : dir = []
  · rw [if_pos hempty, if_pos hempty]
    simp only [Bool.false_eq_true, if_false]
    rw [segments_plain h, segments_slash]
  · rw [if_neg hempty, if_neg hempty]
    split
    · simp only [if_true]
      rw [segments_plain h, segments_slash]
    · simp only [Bool.false_eq_true, if_false]
      rw [← List.cons_append, ← List.append_assoc, segments_plain h, ← segments_slash (cwd ++ '/' :: dir), List.append_assoc,
        List.cons_append]

theorem nonempty_segments {segment : Segment} (h : segment ∈ segments path) : segment ≠ [] := by
  suffices hall : ∀ (list resolved : List Segment), (∀ s ∈ resolved, s ≠ []) → ∀ s ∈ list.foldl push resolved, s ≠ [] from
    hall _ [] (fun _ hs => absurd hs List.not_mem_nil) segment h
  intro list
  induction list with
  | nil => exact fun _ hresolved => hresolved
  | cons next rest ih =>
    intro resolved hresolved
    refine ih _ fun s hs => ?_
    unfold push at hs
    split at hs
    next => exact hresolved s hs
    next hnext =>
      split at hs
      next => exact hresolved s (List.dropLast_subset _ hs)
      next =>
        rcases List.mem_append.1 hs with hs | hs
        · exact hresolved s hs
        · rw [List.mem_singleton.1 hs]
          exact (not_or.1 hnext).1

theorem resolveSegments_nonempty {cwd : List Char} {paths : List (List Char)} :
    ∀ segment ∈ resolveSegments cwd paths, segment ≠ [] := fun _ => nonempty_segments

theorem render_eq_root {resolved : List Segment} (h : ∀ segment ∈ resolved, segment ≠ []) :
    render resolved = ['/'] ↔ resolved = [] := by
  constructor
  · intro htext
    cases resolved with
    | nil => rfl
    | cons segment rest =>
      rw [render, if_neg (List.cons_ne_nil _ _), List.flatMap_cons, List.cons_append, List.cons_inj_right,
        List.append_eq_nil_iff] at htext
      exact absurd htext.1 (h segment List.mem_cons_self)
  · rintro rfl
    rfl

/-! ## Entries of a directory -/

theorem render_concat (resolved : List Segment) (name : Segment) :
    render (resolved ++ [name]) = resolved.flatMap ('/' :: ·) ++ '/' :: name := by
  rw [render, if_neg (List.append_ne_nil_of_right_ne_nil _ (List.cons_ne_nil _ _)), List.flatMap_append,
    List.flatMap_singleton]

end PosixPath
