import Stencil.Loader

/-!
# Files stay below their root

A loader of files looks only below its root, whatever the name: with slashes or backslashes, rooted
or not, and however many steps up it takes. The root itself may lead up.

The parts of a cleaned path are steps up and then steps down (`Path.Clean`). A name whose path does
not start with a step up has none at all, so its parts come after those of the root and take none of
them back (`Path.append_eq`). It makes no difference that the two are put together as texts and
cleaned once more (`Path.ofString_join`).
-/

namespace Stencil

open List

namespace Path

variable {rooted : Bool} {back parts : List String} {part : String} {cs ds : List Char} {s : String}
  {p q : Path}

/-- A part that leads one step down. -/
def Down (part : String) : Prop := part ≠ "" ∧ part ≠ "." ∧ part ≠ ".." ∧ '/' ∉ part.toList

/-! ## Texts and their segments -/

theorem segments_cons_slash : segments ('/' :: cs) = [] :: segments cs := by simp [segments]

theorem segments_ne_nil : segments cs ≠ [] := by
  fun_cases segments cs <;> simp

theorem segments_append : segments (cs ++ '/' :: ds) = segments cs ++ segments ds := by
  induction cs with
  | nil => exact segments_cons_slash
  | cons c cs ih =>
    by_cases slash : c = '/'
    · subst slash
      rw [cons_append, segments_cons_slash, segments_cons_slash, ih, cons_append]
    · cases rest : segments cs with
      | nil => exact absurd rest segments_ne_nil
      | cons first others => simp [segments, slash, ih, rest]

theorem segments_of_slashless (h : '/' ∉ cs) : segments cs = [cs] := by
  induction cs with
  | nil => rfl
  | cons c cs ih =>
    obtain ⟨here, below⟩ := not_or.1 (mt mem_cons.2 h)
    simp [segments, Ne.symm here, ih below]

theorem slashless_of_mem_segments (h : ds ∈ segments cs) : '/' ∉ ds := by
  induction cs generalizing ds with
  | nil => simp_all [segments]
  | cons c cs ih =>
    by_cases slash : c = '/'
    · subst slash
      rw [segments_cons_slash] at h
      cases h with
      | head => exact not_mem_nil
      | tail _ below => exact ih below
    · cases rest : segments cs with
      | nil => exact absurd rest segments_ne_nil
      | cons first others =>
        rw [rest] at ih
        simp only [segments, slash, if_false, rest, mem_cons] at h
        obtain rfl | h := h
        · exact not_mem_cons_of_ne_of_not_mem (Ne.symm slash) (ih (mem_cons_self ..))
        · exact ih (mem_cons_of_mem _ h)

/-- The parts of a text, empty ones and dots included. -/
def split (s : String) : List String := (segments s.toList).map String.ofList

theorem slashless_of_mem_split (h : part ∈ split s) : '/' ∉ part.toList := by
  obtain ⟨ds, mem, rfl⟩ := mem_map.1 h
  rw [String.toList_ofList]
  exact slashless_of_mem_segments mem

theorem ofString_eq (h : (s.toList.head? == some '/') = rooted) :
    ofString s = ⟨rooted, ((split s).foldl (push rooted) []).reverse⟩ := by
  subst h
  rfl

theorem split_join (s t : String) : split (s ++ "/" ++ t) = split s ++ split t := by
  have slash : ("/" : String).toList = ['/'] := rfl
  simp only [split, String.toList_append, slash, append_assoc, singleton_append,
    segments_append, map_append]

theorem split_intercalate (h : ∀ part ∈ parts, '/' ∉ part.toList) (some : parts ≠ []) :
    split (String.intercalate "/" parts) = parts := by
  induction parts with
  | nil => exact absurd rfl some
  | cons first rest ih =>
    have alone : split first = [first] := by
      rw [split, segments_of_slashless (h first (mem_cons_self ..)), map_singleton,
        String.ofList_toList]
    cases rest with
    | nil => exact alone
    | cons second others =>
      rw [String.intercalate_cons_cons, split_join, alone,
        ih (fun part mem => h part (mem_cons_of_mem _ mem)) (cons_ne_nil _ _)]
      rfl

/-! ## Cleaned paths -/

theorem push_down (h : Down part) : push rooted back part = part :: back := by
  obtain ⟨ne, dot, up, -⟩ := h
  simp [push, ne, dot, up]

theorem foldl_push_down (h : ∀ part ∈ parts, Down part) :
    parts.foldl (push rooted) back = parts.reverse ++ back := by
  induction parts generalizing back with
  | nil => rfl
  | cons first rest ih =>
    rw [foldl_cons, push_down (h first (mem_cons_self ..)),
      ih fun part mem => h part (mem_cons_of_mem _ mem)]
    simp

/-- Parts, the last one first, that lead some steps up and then down. From the root no step leads
up. -/
def Clean (rooted : Bool) (back : List String) : Prop :=
  ∃ downs ups, back = downs ++ List.replicate ups ".." ∧ (∀ part ∈ downs, Down part) ∧
    (rooted = true → ups = 0)

theorem push_clean (h : Clean rooted back) (slashless : '/' ∉ part.toList) :
    Clean rooted (push rooted back part) := by
  obtain ⟨downs, ups, rfl, down, top⟩ := h
  by_cases still : part = "" ∨ part = "."
  · exact ⟨downs, ups, if_pos still, down, top⟩
  obtain ⟨ne, dot⟩ := not_or.1 still
  by_cases up : part = ".."
  · subst up
    cases downs with
    | cons last downs =>
      have notUp := (down last (mem_cons_self ..)).2.2.1
      exact ⟨downs, ups, by simp [push, notUp],
        fun part mem => down part (mem_cons_of_mem _ mem), top⟩
    | nil =>
      cases ups with
      | succ ups => exact ⟨[], ups + 2, by simp [push, replicate_succ], down, by simpa using top⟩
      | zero =>
        cases rooted with
        | true => exact ⟨[], 0, by simp [push], down, top⟩
        | false => exact ⟨[], 1, by simp [push], down, by simp⟩
  · have leads : Down part := ⟨ne, dot, up, slashless⟩
    exact ⟨part :: downs, ups, push_down leads, forall_mem_cons.2 ⟨leads, down⟩, top⟩

theorem foldl_push_clean (h : Clean rooted back) (slashless : ∀ part ∈ parts, '/' ∉ part.toList) :
    Clean rooted (parts.foldl (push rooted) back) := by
  induction parts generalizing back with
  | nil => exact h
  | cons first rest ih =>
    exact ih (push_clean h (slashless first (mem_cons_self ..)))
      fun part mem => slashless part (mem_cons_of_mem _ mem)

theorem ofString_clean (s : String) : Clean (ofString s).rooted (ofString s).parts.reverse := by
  rw [ofString, reverse_reverse]
  exact foldl_push_clean ⟨[], 0, rfl, by simp, fun _ => rfl⟩ fun _ => slashless_of_mem_split

/-- A cleaned path that does not start with a step up takes none. -/
theorem down_of_escapes (h : (ofString s).escapes = false) : ∀ part ∈ (ofString s).parts, Down part := by
  obtain ⟨downs, ups, back, down, -⟩ := ofString_clean s
  have parts : (ofString s).parts = List.replicate ups ".." ++ downs.reverse := by
    rw [← reverse_reverse (ofString s).parts, back, reverse_append, reverse_replicate]
  cases ups with
  | zero => simpa [parts] using down
  | succ ups => simp [escapes, parts, replicate_succ] at h

theorem append_eq (h : ∀ part ∈ q.parts, Down part) : p.append q = ⟨p.rooted, p.parts ++ q.parts⟩ := by
  simp [append, foldl_push_down h]

/-! ## Paths as texts -/

theorem head?_append (some : s ≠ "") (t : String) : (s ++ t).toList.head? = s.toList.head? := by
  cases cs : s.toList with
  | nil => exact absurd (String.toList_eq_nil_iff.1 cs) some
  | cons c cs => simp [String.toList_append, *]

/-- The text of a path pushes its parts, and besides them only what says nothing. -/
theorem foldl_push_toString (h : ∀ part ∈ q.parts, Down part) :
    (split q.toString).foldl (push rooted) back = q.parts.reverse ++ back := by
  have still (rest : List String) : ("" :: rest).foldl (push rooted) back = rest.foldl (push rooted) back := rfl
  obtain ⟨rootedQ, parts⟩ := q
  by_cases none : parts = []
  · subst none
    cases rootedQ <;> rfl
  · have body : split (String.intercalate "/" parts) = parts :=
      split_intercalate (fun part mem => (h part mem).2.2.2) none
    cases rootedQ with
    | true =>
      have text : toString ⟨true, parts⟩ = "" ++ "/" ++ String.intercalate "/" parts := rfl
      rw [text, split_join, body]
      exact (still parts).trans (foldl_push_down h)
    | false =>
      have text : toString ⟨false, parts⟩ = String.intercalate "/" parts := by
        simp [toString, none]
      rw [text, body]
      exact foldl_push_down h

/-- To put two texts together and to clean the result is to put the paths together. -/
theorem ofString_join (some : s ≠ "") (h : ∀ part ∈ q.parts, Down part) :
    ofString (s ++ "/" ++ q.toString) = (ofString s).append q := by
  have starts : (s ++ "/" ++ q.toString).toList.head? = s.toList.head? := by
    rw [String.append_assoc]
    exact head?_append some _
  rw [append_eq h, ofString_eq rfl, ofString_eq (s := s) rfl, starts, split_join, foldl_append, foldl_push_toString h,
    reverse_append, reverse_reverse]

end Path

namespace Loader

open Stencil.Path (Down)

variable {root name : String} {path : Path}

theorem locate_ok (some : root ≠ "") (h : locate root name = .ok path) :
    (∀ part ∈ (relative name).parts, Down part) ∧
      path = (Path.ofString root).append (relative name) := by
  have notEmpty : root.isEmpty = false := by simpa using some
  simp only [locate, notEmpty, Bool.false_eq_true, if_false] at h
  split at h
  · exact (Except.noConfusion rfl rfl (heq_of_eq h))
  · split at h
    · exact (Except.noConfusion rfl rfl (heq_of_eq h))
    · next stays => exact ⟨Path.down_of_escapes (Bool.eq_false_iff.2 stays), (Except.ok.inj h).symm⟩

/-- **A loader of files reads only below its root.**  If it takes a name, the path it reads is the
one that the root and the cleaned name are joined to: the parts of the root, and after them only
steps down. What it answers depends on no other file. If it does not take a name, it reads nothing. -/
theorem below_confined (some : root ≠ "") :
    (∀ name path, locate root name = .ok path →
      path = Path.ofString (root ++ "/" ++ (relative name).toString) ∧
      (∃ rest, path = ⟨(Path.ofString root).rooted, (Path.ofString root).parts ++ rest⟩ ∧
        ∀ part ∈ rest, Down part) ∧
      ∀ read read', read path = read' path → below read root name = below read' root name) ∧
    ∀ name bad, locate root name = .error bad → ∀ read,
      below read root name = .error (.plain (bad.message name)) := by
  refine ⟨fun name path h => ?_, fun name bad h read => ?_⟩
  · obtain ⟨down, rfl⟩ := locate_ok some h
    refine ⟨(Path.ofString_join some down).symm, ⟨_, Path.append_eq down, down⟩, ?_⟩
    intro read read' same
    rw [below, below, h]
    simp only [same]
  · rw [below, h]

/-- The root may lead up, the name takes back no more than it has. -/
theorem below_confined_up : "../site" ≠ "" ∧
    locate "../site" "//..\\pages/x/../a.twig" = .ok ⟨false, ["..", "site", "pages", "a.twig"]⟩ ∧
    Path.ofString ("../site" ++ "/" ++ (relative "//..\\pages/x/../a.twig").toString) =
      ⟨false, ["..", "site", "pages", "a.twig"]⟩ :=
  have named : "../site" ≠ "" := by decide
  have found : locate "../site" "//..\\pages/x/../a.twig" =
    .ok ⟨false, ["..", "site", "pages", "a.twig"]⟩ := by rfl
  ⟨named, found, ((below_confined named).1 _ _ found).1.symm⟩

end Loader
end Stencil
