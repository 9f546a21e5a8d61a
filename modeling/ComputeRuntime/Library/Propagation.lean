import Mathlib.Data.List.Induction
import Mathlib.Logic.Relation
import Mathlib.Order.Bounds.Basic
import Mathlib.Order.Lattice

/-! Values passed on along the edges of a graph. The nodes are taken in some order, once, and the
value of the node that is taken goes to all its callers. How far a value comes then depends on the
order. -/
namespace Propagation

variable {ν : Type*} {α : Type*}

/-- A node takes a value in. -/
def absorb [DecidableEq ν] [SemilatticeSup α] (value : ν → α) (u : ν) (x : α) : ν → α :=
  Function.update value u (value u ⊔ x)

/-- The value of a node goes to its callers. -/
def push [DecidableEq ν] [SemilatticeSup α] (callers : List ν) (value : ν → α) (v : ν) : ν → α :=
  callers.foldl (fun value u => absorb value u (value v)) value

def pass [DecidableEq ν] [SemilatticeSup α] (callers : ν → List ν) (order : List ν)
    (value : ν → α) : ν → α :=
  order.foldl (fun value v => push (callers v) value v) value

/-- The value of `g` comes to `u`: it is its own, or it came to a node that `u` calls before that
node was taken. -/
inductive Carries (calls : ν → ν → Prop) : List ν → ν → ν → Prop where
  | own (order : List ν) (u : ν) : Carries calls order u u
  | call {front rest : List ν} {u v g : ν} (edge : calls u v)
      (earlier : Carries calls front v g) : Carries calls (front ++ v :: rest) u g

/-- A node is taken before another one. -/
def Precedes (order : List ν) (v u : ν) : Prop :=
  ∃ front rest, order = front ++ u :: rest ∧ v ∈ front

/-- Where a node is taken once, it is clear what was taken before. -/
theorem precedes_iff {front rest : List ν} {u v : ν} (nodup : (front ++ u :: rest).Nodup) :
    Precedes (front ++ u :: rest) v u ↔ v ∈ front := by
  constructor
  · rintro ⟨front', rest', same, member⟩
    rcases List.append_eq_append_iff.mp same with ⟨between, rfl, tail⟩ | ⟨between, rfl, _⟩
    · cases between with
      | nil => simpa using member
      | cons x between =>
        -- the node would be taken twice
        obtain ⟨rfl, rfl⟩ := List.cons.inj tail
        have apart := (List.nodup_cons.mp (List.nodup_append.mp nodup).2.1).1
        exact absurd (by simp) apart
    · exact List.mem_append_left _ member
  · exact fun member => ⟨front, rest, rfl, member⟩

section Carried

variable {calls : ν → ν → Prop} {order : List ν} {u v g : ν}

theorem Carries.append (carries : Carries calls order u g) (more : List ν) :
    Carries calls (order ++ more) u g := by
  cases carries with
  | own => exact .own _ u
  | call edge earlier =>
    rw [List.append_assoc, List.cons_append]
    exact .call edge earlier

/-- Taking one more node. -/
theorem carries_concat : Carries calls (order ++ [v]) u g ↔
    Carries calls order u g ∨ (calls u v ∧ Carries calls order v g) := by
  constructor
  · intro carries
    generalize whole : order ++ [v] = longer at carries
    cases carries with
    | own => exact .inl (.own order u)
    | @call front rest _ w _ edge earlier =>
      -- the last call is either the one to the new node or it was there before
      rcases List.eq_nil_or_concat rest with rfl | ⟨rest, last, rfl⟩
      · obtain ⟨rfl, same⟩ := List.append_inj' whole rfl
        obtain rfl := List.singleton_inj.mp same
        exact .inr ⟨edge, earlier⟩
      · rw [List.concat_eq_append, ← List.cons_append, ← List.append_assoc] at whole
        obtain ⟨rfl, _⟩ := List.append_inj' whole rfl
        exact .inl (.call edge earlier)
  · rintro (before | ⟨edge, earlier⟩)
    · exact before.append [v]
    · exact .call edge earlier

/-- A value comes to a node over one call and then over calls of nodes that are taken before their
callers. -/
theorem carries_iff {before : ν → ν → Prop} (nodup : order.Nodup) (all : ∀ u v, calls u v → v ∈ order)
    (ordered : ∀ u v, calls u v → (Precedes order v u ↔ before u v)) :
    Carries calls order u g ↔
      u = g ∨ ∃ v, calls u v ∧ Relation.ReflTransGen (fun u v => calls u v ∧ before u v) v g := by
  have taken : ∀ front v rest, order = front ++ v :: rest →
      (Carries calls front v g ↔
        Relation.ReflTransGen (fun u v => calls u v ∧ before u v) v g) := by
    intro front v rest whole
    constructor
    · intro carries
      induction carries generalizing rest with
      | own => exact .refl
      | @call front' rest' v w g edge _ ih =>
        rw [List.append_assoc, List.cons_append] at whole
        have precedes : Precedes order w v := ⟨front' ++ w :: rest', rest, by
          rw [whole, List.append_assoc, List.cons_append], by simp⟩
        exact .head ⟨edge, (ordered v w edge).mp precedes⟩ (ih _ whole)
    · intro onward
      induction onward using Relation.ReflTransGen.head_induction_on generalizing front rest with
      | refl => exact .own front g
      | @head v w edge _ ih =>
        have precedes := (ordered v w edge.1).mpr edge.2
        rw [whole] at precedes
        have member := (precedes_iff (whole ▸ nodup)).mp precedes
        obtain ⟨front', rest', rfl⟩ := List.append_of_mem member
        rw [List.append_assoc, List.cons_append] at whole
        exact .call edge.1 (ih front' _ whole)
  constructor
  · intro carries
    cases carries with
    | own => exact .inl rfl
    | call edge earlier => exact .inr ⟨_, edge, (taken _ _ _ rfl).mp earlier⟩
  · rintro (rfl | ⟨v, edge, onward⟩)
    · exact .own order u
    · obtain ⟨front, rest, rfl⟩ := List.append_of_mem (all u v edge)
      exact .call edge ((taken front v rest rfl).mpr onward)

end Carried

section Values

variable [DecidableEq ν] [SemilatticeSup α] {calls : ν → ν → Prop} {callers : ν → List ν}
  {order : List ν} {value : ν → α} {u v : ν}

theorem absorb_self (value : ν → α) (v : ν) : absorb value v (value v) = value := by
  rw [absorb, sup_idem, Function.update_eq_self]

theorem push_apply (list : List ν) (value : ν → α) (u v : ν) :
    push list value v u = if u ∈ list then value u ⊔ value v else value u := by
  induction list generalizing value with
  | nil => rfl
  | cons w list ih =>
    have kept : absorb value w (value v) v = value v := by
      by_cases same : v = w
      · rw [← same, absorb_self]
      · exact Function.update_of_ne same _ _
    change push list (absorb value w (value v)) v u = _
    rw [ih, kept]
    by_cases same : u = w
    · subst same
      have taken : absorb value u (value v) u = value u ⊔ value v := Function.update_self ..
      simp [taken]
    · have other : absorb value w (value v) u = value u := Function.update_of_ne same _ _
      simp [other, same]

/-- In the end a node has what came to it. -/
theorem pass_isLUB (edges : ∀ u v, u ∈ callers v ↔ calls u v) (order : List ν)
    (value : ν → α) (u : ν) :
    IsLUB {x | ∃ g, Carries calls order u g ∧ value g = x} (pass callers order value u) := by
  induction order using List.reverseRecOn generalizing u with
  | nil =>
    have own : {x | ∃ g, Carries calls [] u g ∧ value g = x} = {value u} := by
      ext x
      constructor
      · rintro ⟨g, carries, rfl⟩
        generalize none_taken : ([] : List ν) = order at carries
        cases carries with
        | own => rfl
        | call => exact absurd none_taken (by simp)
      · rintro rfl
        exact ⟨u, .own [] u, rfl⟩
    rw [own]
    exact isLUB_singleton
  | append_singleton order v ih =>
    have split : {x | ∃ g, Carries calls (order ++ [v]) u g ∧ value g = x} =
        {x | ∃ g, Carries calls order u g ∧ value g = x} ∪
          {x | calls u v ∧ ∃ g, Carries calls order v g ∧ value g = x} := by
      ext x
      simp only [carries_concat, Set.mem_ofPred_eq, Set.mem_union]
      constructor
      · rintro ⟨g, before | ⟨edge, earlier⟩, same⟩
        · exact .inl ⟨g, before, same⟩
        · exact .inr ⟨edge, g, earlier, same⟩
      · rintro (⟨g, before, same⟩ | ⟨edge, g, earlier, same⟩)
        · exact ⟨g, .inl before, same⟩
        · exact ⟨g, .inr ⟨edge, earlier⟩, same⟩
    have last : pass callers (order ++ [v]) value u =
        if u ∈ callers v then pass callers order value u ⊔ pass callers order value v
        else pass callers order value u := by
      rw [pass, List.foldl_append, List.foldl_cons, List.foldl_nil, push_apply]
      rfl
    rw [split, last]
    by_cases edge : calls u v
    · rw [if_pos ((edges u v).mpr edge)]
      simpa [edge] using (ih u).union (ih v)
    · rw [if_neg (fun member => edge ((edges u v).mp member))]
      simpa [edge] using ih u

end Values

end Propagation
