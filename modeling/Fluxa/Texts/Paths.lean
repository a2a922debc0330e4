import Mathlib.Data.List.Basic

/-!
# Texts — paths

Paths of a POSIX file system as texts: their components, how two are joined, and their lexical normal form, in which a name that a double dot follows is gone.

**Joining a plain path** (`normalize_join`).  A path is plain if its segments are names: none is empty, a dot or a double dot.  Joined to any path, it is appended in the normal form.

**A plain path is its segments** (`eq_of_segments_eq`), so that two of them with one normal form below the same path are equal (`eq_of_normalize_join_eq`).
-/

namespace Paths

/-- A component of a path. -/
inductive Component where
  | root
  | current
  | parent
  | name (name : List Char)
deriving DecidableEq, Repr

/-- The texts between the slashes. -/
def segments (path : List Char) : List (List Char) := path.splitOn '/'

/-- The component that a segment stands for, where it is not the first one of a relative path. -/
def component? : List Char → Option Component
  | [] => none
  | ['.'] => none
  | ['.', '.'] => some .parent
  | segment => some (.name segment)

/-- The component before all others: the root of an absolute path, or a leading dot. -/
def start (path : List Char) : List Component :=
  if path.head? = some '/' then [.root]
  else if (segments path).head? = some ['.'] then [.current]
  else []

/-- The components: empty segments and dots are left out, except for a leading dot. -/
def components (path : List Char) : List Component :=
  start path ++ (segments path).filterMap component?

/-- The path `tail` as seen from `path`: an absolute one is itself. -/
def join (path tail : List Char) : List Char :=
  if tail.head? = some '/' then tail
  else if path = [] ∨ path.getLast? = some '/' then path ++ tail
  else path ++ '/' :: tail

/-- One more component.  The last one comes first. -/
def push : List Component → Component → List Component
  | _, .root => [.root]
  | stack, .current => stack
  | .name _ :: stack, .parent => stack
  | .root :: stack, .parent => .root :: stack
  | stack, .parent => .parent :: stack
  | stack, .name n => .name n :: stack

/-- The lexical normal form. -/
def normalize (path : List Char) : List Component := ((components path).foldl push []).reverse

/-- The segment is the name of something in a directory. -/
def IsName (segment : List Char) : Prop := segment ≠ [] ∧ segment ≠ ['.'] ∧ segment ≠ ['.', '.']

/-- A relative path whose segments are names. -/
def Plain (path : List Char) : Prop := ∀ segment ∈ segments path, IsName segment

variable {path tail other segment : List Char} {names : List (List Char)}
  {stack : List Component}

theorem IsName.component (h : IsName segment) : component? segment = some (.name segment) := by
  obtain ⟨hempty, hdot, hdots⟩ := h
  unfold component?
  split
  · exact absurd rfl hempty
  · exact absurd rfl hdot
  · exact absurd rfl hdots
  · rfl

theorem filterMap_component (h : ∀ n ∈ names, IsName n) :
    names.filterMap component? = names.map .name := by
  induction names with
  | nil => rfl
  | cons n names ih =>
      rw [List.filterMap_cons, (h n List.mem_cons_self).component]
      exact congrArg _ (ih fun m hm => h m (List.mem_cons_of_mem _ hm))

/-! ### Joining -/

theorem segments_ne_nil : segments path ≠ [] := List.splitOn_ne_nil _ _

theorem segments_slash : segments (path ++ '/' :: tail) = segments path ++ segments tail :=
  List.splitOn_append_cons_self _ _

theorem eq_of_segments_eq (h : segments path = segments tail) : path = tail := by
  have hjoin := congrArg (['/'].intercalate ·) h
  simpa only [segments, List.intercalate_splitOn] using hjoin

/-- A path that starts with a slash has an empty first segment. -/
theorem Plain.relative (h : Plain path) : path.head? ≠ some '/' := by
  intro hslash
  obtain ⟨rest, rfl⟩ := List.head?_eq_some_iff.mp hslash
  have hempty : [] ∈ segments ('/' :: rest) := by
    have hsplit : segments ([] ++ '/' :: rest) = segments [] ++ segments rest := segments_slash
    rw [List.nil_append] at hsplit
    rw [hsplit]
    exact List.mem_append_left _ (by simp [segments])
  exact (h [] hempty).1 rfl

theorem Plain.start (h : Plain path) : start path = [] := by
  unfold Paths.start
  rw [if_neg h.relative, if_neg]
  intro hdot
  exact (h ['.'] (List.mem_of_mem_head? hdot)).2.1 rfl

theorem Plain.components (h : Plain path) : components path = (segments path).map .name := by
  rw [Paths.components, h.start, List.nil_append, filterMap_component h]

theorem start_slash (hne : path ≠ []) : start (path ++ '/' :: tail) = start path := by
  have hhead : (path ++ '/' :: tail).head? = path.head? := by
    rw [List.head?_append_of_ne_nil _ hne]
  have hfirst : (segments (path ++ '/' :: tail)).head? = (segments path).head? := by
    rw [segments_slash, List.head?_append_of_ne_nil _ segments_ne_nil]
  unfold start
  rw [hhead, hfirst]

/-- A slash between two paths ends the components of the first. -/
theorem components_slash (hne : path ≠ []) :
    components (path ++ '/' :: tail) =
      components path ++ (segments tail).filterMap component? := by
  unfold components
  rw [start_slash hne, segments_slash, List.filterMap_append, List.append_assoc]

/-- A slash at the end of a path adds no component. -/
theorem components_trailing (hne : path ≠ []) : components (path ++ ['/']) = components path := by
  rw [components_slash hne]
  exact List.append_nil _

/-- **A plain path adds its segments**, to any path that it is joined to. -/
theorem components_join (h : Plain tail) :
    components (join path tail) = components path ++ (segments tail).map .name := by
  unfold join
  rw [if_neg h.relative]
  by_cases hempty : path = []
  · subst hempty
    rw [if_pos (Or.inl rfl), List.nil_append, h.components]
    rfl
  by_cases hlast : path.getLast? = some '/'
  · rw [if_pos (Or.inr hlast)]
    obtain ⟨init, rfl⟩ := List.getLast?_eq_some_iff.mp hlast
    rw [List.append_assoc, List.singleton_append]
    by_cases hinit : init = []
    · subst hinit
      have hsegments : segments ([] ++ '/' :: tail) = segments [] ++ segments tail :=
        segments_slash
      rw [List.nil_append] at hsegments
      change start ('/' :: tail) ++ (segments ('/' :: tail)).filterMap component? = _
      rw [hsegments, List.filterMap_append, filterMap_component h]
      rfl
    · rw [components_slash hinit, components_trailing hinit, filterMap_component h]
  · rw [if_neg (not_or.mpr ⟨hempty, hlast⟩), components_slash hempty, filterMap_component h]

/-! ### Normal forms -/

theorem push_names : (names.map Component.name).foldl push stack =
    (names.map Component.name).reverse ++ stack := by
  induction names generalizing stack with
  | nil => rfl
  | cons n names ih =>
      have hpush : push stack (.name n) = .name n :: stack := by
        cases stack with
        | nil => rfl
        | cons c stack => cases c <;> rfl
      rw [List.map_cons, List.foldl_cons, hpush, ih, List.reverse_cons, List.append_assoc]
      rfl

/-- **A plain path stays below the path that it is joined to.** -/
theorem normalize_join (h : Plain tail) :
    normalize (join path tail) = normalize path ++ (segments tail).map .name := by
  unfold normalize
  rw [components_join h, List.foldl_append, push_names, List.reverse_append, List.reverse_reverse]

theorem eq_of_normalize_join_eq (htail : Plain tail) (hother : Plain other)
    (h : normalize (join path tail) = normalize (join path other)) : tail = other := by
  rw [normalize_join htail, normalize_join hother] at h
  have hnames := List.append_cancel_left h
  have hinj : Function.Injective Component.name := fun _ _ he => Component.name.inj he
  exact eq_of_segments_eq (hinj.list_map hnames)

/-- A name that a double dot follows is gone, and a leading double dot stays. -/
example : normalize "../a/./b/..//c".toList = [.parent, .name ['a'], .name ['c']] := by decide

end Paths
