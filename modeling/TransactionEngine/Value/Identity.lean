import TransactionEngine.Value.Basic

/-! # Identity of values

Whether two values are the same in all that they hold. Where they are one in memory that is seen
at once, so that no work is done twice on what values share.
-/

namespace TransactionEngine

mutual

def Value.decEq (v w : Value) : Decidable (v = w) :=
  if h : v.ctorIdx = w.ctorIdx then
    match v, w, h with
    | .nil, .nil, _ => isTrue rfl
    | .bool a, .bool b, _ => decidable_of_iff (a = b) (by simp)
    | .int a, .int b, _ => decidable_of_iff (a = b) (by simp)
    | .string a, .string b, _ => decidable_of_iff (a = b) (by simp)
    | .null, .null, _ => isTrue rfl
    | .object o, .object p, _ =>
      @decidable_of_iff _ (o = p) (by simp) (withPtrEqDecEq o p fun _ => Object.decEq o p)
    | .set vs, .set ws, _ =>
      @decidable_of_iff _ (vs = ws) (by simp) (withPtrEqDecEq vs ws fun _ => Value.decEqAll vs ws)
    | .named a v, .named b w, _ =>
      if h : a = b then
        @decidable_of_iff _ (v = w) (by simp [h]) (withPtrEqDecEq v w fun _ => Value.decEq v w)
      else isFalse (by simp [h])
  else isFalse fun e => h (e ▸ rfl)

def Object.decEq (o p : Object) : Decidable (o = p) :=
  if h : o.ctorIdx = p.ctorIdx then
    match o, p, h with
    | .connection a m, .connection b n, _ => decidable_of_iff (a = b ∧ m = n) (by simp)
    | .set a vs, .set b ws, _ =>
      if h : a = b then
        @decidable_of_iff _ (vs = ws) (by simp [h])
          (withPtrEqDecEq vs ws fun _ => Value.decEqAll vs ws)
      else isFalse (by simp [h])
    | .plugin a s, .plugin b t, _ => decidable_of_iff (a = b ∧ s = t) (by simp)
  else isFalse fun e => h (e ▸ rfl)

/-- Decides whether two lists of values are the same. -/
def Value.decEqAll : (vs ws : List Value) → Decidable (vs = ws)
  | [], [] => isTrue rfl
  | [], _ :: _ => isFalse nofun
  | _ :: _, [] => isFalse nofun
  | v :: vs, w :: ws =>
    match Value.decEq v w with
    | isTrue h => @decidable_of_iff _ (vs = ws) (by simp [h]) (Value.decEqAll vs ws)
    | isFalse h => isFalse (by simp [h])

end

/-- Whether two values are the same in all that they hold. Values can be equal in their order
without that: two sets with one content, or two references to one connection. -/
def Value.identical (v w : Value) : Bool :=
  @decide (v = w) (v.decEq w)

theorem Value.identical_iff {v w : Value} : v.identical w = true ↔ v = w := by
  simp [identical]

end TransactionEngine
