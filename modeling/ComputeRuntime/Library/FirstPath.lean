import Mathlib.Data.List.Basic
import Mathlib.Data.List.Induction
import Mathlib.Logic.Relation

/-! Paths in a graph whose edges are in order. Of two paths that part, the one that takes the
earlier edge is the earlier one. The first path to a node is the one by which a depth-first walk
comes to it: when the walk stands at a node, what lies before its path is seen already. -/
namespace FirstPath

section Paths

variable {ν : Type*} (roots : List ν) (callees : ν → List ν)

/-- The ways to go on behind a path, in order; a path begins at a root. -/
def choices (path : List ν) : List ν :=
  match path.getLast? with
  | none => roots
  | some v => callees v

/-- Every node of the path is among the ways to go on behind those in front of it. -/
def IsPath (path : List ν) : Prop :=
  ∀ front z rest, path = front ++ z :: rest → z ∈ choices roots callees front

/-- Along the edges, around some nodes. -/
def Around (avoided : List ν) : ν → ν → Prop :=
  Relation.ReflTransGen fun v w => w ∈ callees v ∧ w ∉ avoided

variable {roots callees} {path other front rest : List ν} {u v : ν}

theorem choices_concat (front : List ν) (v : ν) :
    choices roots callees (front ++ [v]) = callees v := by
  rw [choices, List.getLast?_concat]

theorem isPath_nil : IsPath roots callees [] := by
  intro front z rest whole
  exact absurd whole (by simp)

/-- Two lists part, unless one is in front of the other. -/
theorem exists_parting (path other : List ν) : path <+: other ∨ other <+: path ∨
    ∃ front y z rest rest', path = front ++ y :: rest ∧ other = front ++ z :: rest' ∧ y ≠ z := by
  induction path generalizing other with
  | nil => exact .inl List.nil_prefix
  | cons x path ih =>
    cases other with
    | nil => exact .inr (.inl List.nil_prefix)
    | cons x' other =>
      by_cases same : x = x'
      · subst same
        rcases ih other with before | before | ⟨front, y, z, rest, rest', rfl, rfl, differ⟩
        · exact .inl (List.prefix_cons_inj x |>.mpr before)
        · exact .inr (.inl (List.prefix_cons_inj x |>.mpr before))
        · exact .inr (.inr ⟨x :: front, y, z, rest, rest', rfl, rfl, differ⟩)
      · exact .inr (.inr ⟨[], x, x', path, other, rfl, rfl, same⟩)

/-- A list that comes to its last element once is not the front of another that does. -/
theorem eq_of_leading (before : path <+: other) (last : path.getLast? = some v)
    (otherLast : other.getLast? = some v) (nodup : other.Nodup) : path = other := by
  obtain ⟨rest, rfl⟩ := before
  rcases List.eq_nil_or_concat rest with rfl | ⟨rest, w, rfl⟩
  · rw [List.append_nil]
  · rw [List.concat_eq_append, ← List.append_assoc, List.getLast?_concat] at otherLast
    obtain rfl := Option.some.inj otherLast
    have twice := (List.nodup_append.mp nodup).2.2 w (List.mem_of_getLast? last) w (by simp)
    exact absurd rfl twice

/-- A property of the splits of a longer path. -/
theorem split_concat {P : List ν → ν → Prop} (before : ∀ front z rest, path = front ++ z :: rest →
    P front z) (last : P path v) :
    ∀ front z rest, path ++ [v] = front ++ z :: rest → P front z := by
  intro front z rest whole
  rcases List.eq_nil_or_concat rest with rfl | ⟨rest, w, rfl⟩
  · obtain ⟨rfl, same⟩ := List.append_inj' whole rfl
    obtain rfl := List.singleton_inj.mp same
    exact last
  · rw [List.concat_eq_append, ← List.cons_append, ← List.append_assoc] at whole
    exact before front z rest (List.append_inj' whole rfl).1

theorem IsPath.concat (isPath : IsPath roots callees path) (next : v ∈ choices roots callees path) :
    IsPath roots callees (path ++ [v]) :=
  split_concat isPath next

theorem IsPath.left (isPath : IsPath roots callees (path ++ rest)) : IsPath roots callees path := by
  intro front z more whole
  exact isPath front z (more ++ rest) (by rw [whole, List.append_assoc, List.cons_append])

/-- The last part of a path leads along edges. -/
theorem IsPath.around (isPath : IsPath roots callees (front ++ v :: rest))
    (apart : ∀ w ∈ rest, w ∉ front) (last : (v :: rest).getLast? = some u) :
    Around callees front v u := by
  induction rest using List.reverseRecOn generalizing u with
  | nil =>
    cases last
    exact .refl
  | append_singleton rest x ih =>
    have onward : (v :: (rest ++ [x])).getLast? = some x := by
      rw [← List.cons_append, List.getLast?_concat]
    obtain rfl : x = u := by
      rw [onward] at last
      exact Option.some.inj last
    obtain ⟨y, last⟩ : ∃ y, (v :: rest).getLast? = some y :=
      ⟨_, List.getLast?_eq_some_getLast (List.cons_ne_nil v rest)⟩
    have longer : IsPath roots callees ((front ++ v :: rest) ++ [x]) := by simpa using isPath
    have edge : x ∈ choices roots callees (front ++ v :: rest) :=
      isPath _ x [] (by simp)
    have toLast : (front ++ v :: rest).getLast? = some y := by
      rw [List.getLast?_append, last]
      rfl
    rw [choices, toLast] at edge
    refine (ih longer.left (fun w member => apart w (List.mem_append_left _ member)) last).tail ?_
    exact ⟨edge, apart x (by simp)⟩

end Paths

section First

variable {ν : Type*} [DecidableEq ν] (roots : List ν) (callees : ν → List ν)

/-- What stands in front of an element of a list. -/
def inFront (list : List ν) (z : ν) : List ν := list.takeWhile (· ≠ z)

/-- The paths part, and the first one takes what stands in front of what the second one takes. -/
def Earlier (path other : List ν) : Prop :=
  ∃ front y z rest rest', path = front ++ y :: rest ∧ other = front ++ z :: rest' ∧
    y ∈ inFront (choices roots callees front) z

/-- A path to a node that comes to no node twice, and the earliest of them. -/
structure First (path : List ν) (v : ν) : Prop where
  isPath : IsPath roots callees path
  nodup : path.Nodup
  last : path.getLast? = some v
  first : ∀ other, IsPath roots callees other → other.Nodup → other.getLast? = some v →
    ¬ Earlier roots callees other path

/-- All that can be reached from what lies before the path, around the nodes of it where they part,
has been seen. -/
def Explored (seen : List ν) (path : List ν) : Prop :=
  ∀ front z rest, path = front ++ z :: rest →
    ∀ y ∈ inFront (choices roots callees front) z, y ∉ front →
      ∀ w, Around callees front y w → w ∈ seen

variable {roots callees} {path other front rest seen : List ν} {u v w z : ν}

/-- Nothing behind an element stands in front of it. -/
theorem inFront_subset (front rest : List ν) (z : ν) : inFront (front ++ z :: rest) z ⊆ front := by
  induction front with
  | nil => simp [inFront]
  | cons x front ih =>
    by_cases same : x = z
    · simp [inFront, same]
    · intro y member
      simp only [inFront, List.cons_append, List.takeWhile_cons, ne_eq, same, not_false_eq_true,
        decide_true, if_true, List.mem_cons] at member
      rcases member with rfl | later
      · exact List.mem_cons_self
      · exact List.mem_cons_of_mem _ (ih later)

/-- Of two elements, one stands in front of the other. -/
theorem inFront_or {list : List ν} (first : u ∈ list) (second : v ∈ list) (differ : u ≠ v) :
    u ∈ inFront list v ∨ v ∈ inFront list u := by
  induction list with
  | nil => cases first
  | cons x list ih =>
    simp only [inFront, List.takeWhile_cons]
    by_cases here : x = u
    · subst here
      simp [differ]
    · by_cases there : x = v
      · subst there
        simp [differ.symm]
      · have later := ih ((List.mem_cons.mp first).resolve_left (Ne.symm here))
          ((List.mem_cons.mp second).resolve_left (Ne.symm there))
        simpa [here, there, inFront, Ne.symm here, Ne.symm there] using later

/-! ### The first path to a node -/

/-- There is one first path to a node. -/
theorem First.unique (first : First roots callees path v) (second : First roots callees other v) :
    path = other := by
  rcases exists_parting path other with before | before |
    ⟨front, y, z, rest, rest', here, there, differ⟩
  · exact eq_of_leading before first.last second.last second.nodup
  · exact (eq_of_leading before second.last first.last first.nodup).symm
  · rcases inFront_or (first.isPath front y rest here) (second.isPath front z rest' there) differ
      with earlier | earlier
    · exact absurd ⟨front, y, z, rest, rest', here, there, earlier⟩
        (second.first path first.isPath first.nodup first.last)
    · exact absurd ⟨front, z, y, rest', rest, there, here, earlier⟩
        (first.first other second.isPath second.nodup second.last)

/-- A node of the first path leads to its end. -/
theorem First.reaches (first : First roots callees path v) (member : u ∈ path) :
    Relation.ReflTransGen (fun v w => w ∈ callees v) u v := by
  obtain ⟨front, rest, rfl⟩ := List.append_of_mem member
  have parts := List.nodup_append.mp first.nodup
  have around := first.isPath.around
    (fun w later inside => parts.2.2 w inside w (List.mem_cons_of_mem _ later) rfl) (u := v)
    (by simpa [List.getLast?_append] using first.last)
  exact around.lift id fun _ _ edge => edge.1

/-! ### What lies before a path -/

theorem Explored.mono (explored : Explored roots callees seen path) {more : List ν}
    (grows : seen ⊆ more) : Explored roots callees more path :=
  fun front z rest whole y before apart w around =>
    grows (explored front z rest whole y before apart w around)

theorem explored_nil : Explored roots callees seen [] := by
  intro front z rest whole
  exact absurd whole (by simp)

/-- Where what is seen outside the path leads to what is seen, one goes on to a node when all in
front of it is seen. -/
theorem Explored.concat (explored : Explored roots callees seen path)
    (closed : ∀ x ∈ seen, x ∉ path → ∀ w ∈ callees x, w ∈ seen)
    (before : ∀ y ∈ inFront (choices roots callees path) v, y ∈ seen) :
    Explored roots callees seen (path ++ [v]) := by
  apply split_concat explored
  intro y inFront apart w around
  suffices both : w ∈ seen ∧ w ∉ path from both.1
  induction around with
  | refl => exact ⟨before y inFront, apart⟩
  | tail _ edge ih => exact ⟨closed _ ih.1 ih.2 _ edge.1, edge.2⟩

/-- The path on which a walk comes to a node for the first time is the first path to it. -/
theorem First.of_explored (isPath : IsPath roots callees path) (nodup : path.Nodup)
    (last : path.getLast? = some v) (explored : Explored roots callees seen path)
    (fresh : v ∉ seen) : First roots callees path v := by
  refine ⟨isPath, nodup, last, ?_⟩
  rintro other otherPath otherNodup otherLast ⟨front, y, z, rest, rest', rfl, whole, before⟩
  have parts := List.nodup_append.mp otherNodup
  have apart : ∀ w ∈ y :: rest, w ∉ front :=
    fun w member inside => parts.2.2 w inside w member rfl
  rw [List.getLast?_append, List.getLast?_eq_some_getLast (List.cons_ne_nil y rest)] at otherLast
  have around := otherPath.around (fun w member => apart w (List.mem_cons_of_mem _ member))
    (by simpa [List.getLast?_eq_some_getLast (List.cons_ne_nil y rest)] using otherLast)
  exact fresh (explored front z rest' whole y before (apart y List.mem_cons_self) v around)

end First

end FirstPath
