import Mathlib.Tactic.Lemma
import TransactionEngine.Value.Basic

/-!
# Types and their names

A type that is defined elsewhere can bear any name, also that of a built-in type. Comparisons look
at names: objects of the two are then compared by their places, and those of the built-in type by
what they hold. What makes an order holds where names tell the types of all objects apart that come
up, the objects inside of sets included.
-/

namespace TransactionEngine

/-- The type of the object is defined here. -/
def Object.isBuiltIn : Object → Bool
  | .plugin .. => false
  | _ => true

mutual

/-- The objects that a value is made of, down to those that its sets hold. -/
def Value.parts : Value → List Object
  | .object o => o.parts
  | .set members => Value.partsOf members
  | .named _ v => v.parts
  | _ => []

def Object.parts : Object → List Object
  | .set a members => .set a members :: Value.partsOf members
  | o => [o]

def Value.partsOf : List Value → List Object
  | [] => []
  | v :: vs => v.parts ++ Value.partsOf vs

end

/-- Types with one name are both built in, or both not. -/
def Object.TypesApart (o p : Object) : Prop :=
  o.typeName = p.typeName → o.isBuiltIn = p.isBuiltIn

/-- Objects in one place are of types that names tell apart. There is one object in a place, so this
holds of any objects that are there at one time. -/
def Object.PlacesApart (o p : Object) : Prop :=
  o.address = p.address → o.TypesApart p

instance (o p : Object) : Decidable (o.TypesApart p) :=
  inferInstanceAs (Decidable (_ → _))

instance (o p : Object) : Decidable (o.PlacesApart p) :=
  inferInstanceAs (Decidable (_ → _))

namespace Value

/-- Names tell the types of all objects in the values apart. -/
def TypesApart (vs : List Value) : Prop :=
  ∀ o ∈ partsOf vs, ∀ p ∈ partsOf vs, o.TypesApart p

/-- The objects in the values are of types that names tell apart wherever they are in one place. -/
def PlacesApart (vs : List Value) : Prop :=
  ∀ o ∈ partsOf vs, ∀ p ∈ partsOf vs, o.PlacesApart p

instance (vs : List Value) : Decidable (TypesApart vs) :=
  inferInstanceAs (Decidable (∀ o ∈ partsOf vs, ∀ p ∈ partsOf vs, o.TypesApart p))

instance (vs : List Value) : Decidable (PlacesApart vs) :=
  inferInstanceAs (Decidable (∀ o ∈ partsOf vs, ∀ p ∈ partsOf vs, o.PlacesApart p))

variable {v w : Value} {vs ws items others : List Value} {o : Object} {r : Object → Object → Prop}

lemma mem_partsOf : o ∈ partsOf vs ↔ ∃ v ∈ vs, o ∈ v.parts := by
  induction vs with
  | nil => simp [partsOf]
  | cons v vs ih => simp [partsOf, ih]

lemma partsOf_subset (h : vs ⊆ ws) : partsOf vs ⊆ partsOf ws := by
  intro o ho
  obtain ⟨v, hv, ho⟩ := mem_partsOf.1 ho
  exact mem_partsOf.2 ⟨v, h hv, ho⟩

lemma forall_parts_of_mem (h : ∀ o ∈ partsOf vs, ∀ p ∈ partsOf ws, r o p) (hv : v ∈ vs)
    (hw : w ∈ ws) : ∀ o ∈ v.parts, ∀ p ∈ w.parts, r o p :=
  fun o ho p hp => h o (mem_partsOf.2 ⟨v, hv, ho⟩) p (mem_partsOf.2 ⟨w, hw, hp⟩)

lemma forall_partsOf_of_subset (h : ∀ o ∈ partsOf vs, ∀ p ∈ partsOf ws, r o p) (hv : items ⊆ vs)
    (hw : others ⊆ ws) : ∀ o ∈ partsOf items, ∀ p ∈ partsOf others, r o p :=
  fun o ho p hp => h o (partsOf_subset hv ho) p (partsOf_subset hw hp)

lemma TypesApart.mono (ht : TypesApart ws) (h : vs ⊆ ws) : TypesApart vs :=
  forall_partsOf_of_subset ht h h

lemma TypesApart.placesApart (ht : TypesApart vs) : PlacesApart vs :=
  fun o ho p hp _ => ht o ho p hp

end Value

namespace Object

variable {o p : Object}

lemma mem_parts_self (o : Object) : o ∈ o.parts := by
  cases o <;> exact List.mem_cons_self

lemma TypesApart.typeName_ne (h : o.TypesApart p) (hne : o.isBuiltIn ≠ p.isBuiltIn) :
    o.typeName ≠ p.typeName :=
  fun he => hne (h he)

end Object

end TransactionEngine
