import Mathlib.Data.List.Basic
import TransactionEngine.Json.Writer

/-!
# Compact forms are read in one way

The compact form of a document tells where it ends, if no digit follows it, and tells what the
document is. So different documents without doubles have different compact forms.
-/

namespace TransactionEngine

namespace Json

/-- The document holds no doubles. -/
inductive Exact : Json → Prop
  | null : Exact .null
  | bool (b : Bool) : Exact (.bool b)
  | int (n : Int) : Exact (.int n)
  | string (s : String) : Exact (.string s)
  | array {items : List Json} (h : ∀ j ∈ items, Exact j) : Exact (.array items)
  | object {fields : List (String × Json)} (h : ∀ field ∈ fields, Exact field.2) :
    Exact (.object fields)

attribute [simp] Exact.null Exact.bool Exact.int Exact.string

@[simp] lemma exact_array_iff {items : List Json} : (array items).Exact ↔ ∀ j ∈ items, j.Exact :=
  ⟨fun h => by cases h with | array h => exact h, .array⟩

@[simp] lemma exact_object_iff {fields : List (String × Json)} :
    (object fields).Exact ↔ ∀ field ∈ fields, field.2.Exact :=
  ⟨fun h => by cases h with | object h => exact h, .object⟩

/-- The text does not go on with a digit. -/
def Stops (cs : List Char) : Prop :=
  ∀ c ∈ cs.head?, c.isDigit = false

lemma stops_nil : Stops [] := by
  simp [Stops]

/-- A text that starts with the compact form of the document, and does not go on with a digit, starts
in this way with the compact form of no other document. -/
def ReadInOneWay (j : Json) : Prop :=
  ∀ k : Json, k.Exact → ∀ r s, Stops r → Stops s → j.chars ++ r = k.chars ++ s → j = k ∧ r = s

lemma takeWhile_of_stops {ds cs : List Char} (hds : ∀ d ∈ ds, d.isDigit = true) (h : Stops cs) :
    (ds ++ cs).takeWhile Char.isDigit = ds := by
  rw [List.takeWhile_append_of_pos hds]
  cases cs with
  | nil => simp
  | cons c cs => simp [h c rfl]

lemma isDigit_toDigits {n : Nat} : ∀ d ∈ Nat.toDigits 10 n, d.isDigit = true :=
  fun _ hd => Nat.isDigit_of_mem_toDigits (by omega) (by omega) hd

lemma toDigits_append_inj {m n : Nat} {r s : List Char} (hr : Stops r) (hs : Stops s)
    (h : Nat.toDigits 10 m ++ r = Nat.toDigits 10 n ++ s) : m = n ∧ r = s := by
  have hd : Nat.toDigits 10 m = Nat.toDigits 10 n := by
    rw [← takeWhile_of_stops isDigit_toDigits hr, h, takeWhile_of_stops isDigit_toDigits hs]
  constructor
  · rw [← Nat.ofDigitChars_ten_toDigits (n := m), hd, Nat.ofDigitChars_ten_toDigits]
  · rw [hd] at h
    exact List.append_cancel_left h

lemma exists_toDigits_eq_cons (n : Nat) :
    ∃ d ds, Nat.toDigits 10 n = d :: ds ∧ d.isDigit = true := by
  obtain ⟨d, ds, hd⟩ := List.exists_cons_of_ne_nil (Nat.toDigits_ne_nil (n := n) (b := 10))
  exact ⟨d, ds, hd, isDigit_toDigits d (hd ▸ List.mem_cons_self)⟩

lemma toDigits_append_ne_minus {n : Nat} {r s : List Char} : Nat.toDigits 10 n ++ r ≠ '-' :: s := by
  obtain ⟨d, ds, hd, hdigit⟩ := exists_toDigits_eq_cons n
  rw [hd]
  intro h
  obtain ⟨rfl, -⟩ := List.cons.inj h
  exact absurd hdigit (by decide)

lemma intChars_append_inj {m n : Int} {r s : List Char} (hr : Stops r) (hs : Stops s)
    (h : intChars m ++ r = intChars n ++ s) : m = n ∧ r = s := by
  cases m with
  | ofNat m =>
    cases n with
    | ofNat n =>
      obtain ⟨rfl, hrs⟩ := toDigits_append_inj hr hs h
      exact ⟨rfl, hrs⟩
    | negSucc n => exact absurd h toDigits_append_ne_minus
  | negSucc m =>
    cases n with
    | ofNat n => exact absurd h.symm toDigits_append_ne_minus
    | negSucc n =>
      obtain ⟨hmn, hrs⟩ := toDigits_append_inj hr hs (List.cons.inj h).2
      obtain rfl := Nat.succ.inj hmn
      exact ⟨rfl, hrs⟩

/-- The character that stands first in an escaped text, and what follows it. A text ends at a quote
that is not escaped. -/
def unescape : List Char → Option (Char × List Char)
  | '\\' :: 'u' :: a :: b :: c :: d :: cs =>
    ((List.range 0x20).find? fun n => Text.hex4 n == [a, b, c, d]).map fun n => (Char.ofNat n, cs)
  | '\\' :: 'b' :: cs => some ('\x08', cs)
  | '\\' :: 't' :: cs => some ('\t', cs)
  | '\\' :: 'n' :: cs => some ('\n', cs)
  | '\\' :: 'f' :: cs => some ('\x0c', cs)
  | '\\' :: 'r' :: cs => some ('\r', cs)
  -- What is left to be escaped is the quote and the backslash.
  | '\\' :: c :: cs => some (c, cs)
  | '"' :: _ => none
  | c :: cs => some (c, cs)
  | [] => none

lemma unescape_escapedChar (c : Char) (cs : List Char) :
    unescape (escapedChar c ++ cs) = some (c, cs) := by
  have hfind : ∀ n < 0x20, ((List.range 0x20).find? fun m => Text.hex4 m == Text.hex4 n) = some n := by
    decide
  unfold escapedChar
  split_ifs with h₁ h₂ h₃ h₄ h₅ h₆ h₇ h₈
  · rw [h₁]; rfl
  · rw [h₂]; rfl
  · rw [h₃]; rfl
  · rw [h₄]; rfl
  · rw [h₅]; rfl
  · rw [h₆]; rfl
  · rw [h₇]; rfl
  · change ((List.range 0x20).find? fun n => Text.hex4 n == Text.hex4 c.toNat).map _ = _
    rw [hfind _ h₈, Option.map_some, Char.ofNat_toNat]
    rfl
  · rw [List.singleton_append, unescape] <;> simp [h₁, h₂]

lemma flatMap_escapedChar_append_inj {as bs r s : List Char}
    (h : as.flatMap escapedChar ++ '"' :: r = bs.flatMap escapedChar ++ '"' :: s) :
    as = bs ∧ r = s := by
  induction as generalizing bs with
  | nil =>
    cases bs with
    | nil => exact ⟨rfl, (List.cons.inj h).2⟩
    | cons b bs =>
      have hu := congrArg unescape h
      rw [List.flatMap_cons, List.append_assoc, unescape_escapedChar] at hu
      cases hu
  | cons a as ih =>
    have hu := congrArg unescape h
    rw [List.flatMap_cons, List.append_assoc, unescape_escapedChar] at hu
    cases bs with
    | nil => cases hu
    | cons b bs =>
      rw [List.flatMap_cons, List.append_assoc, unescape_escapedChar] at hu
      obtain ⟨rfl, hrest⟩ := Prod.mk.inj (Option.some.inj hu)
      obtain ⟨rfl, hrs⟩ := ih hrest
      exact ⟨rfl, hrs⟩

lemma stringChars_append_inj {a b : String} {r s : List Char}
    (h : stringChars a ++ r = stringChars b ++ s) : a = b ∧ r = s := by
  simp only [stringChars, List.cons_append, List.append_assoc, List.nil_append] at h
  obtain ⟨hab, hrs⟩ := flatMap_escapedChar_append_inj (List.cons.inj h).2
  exact ⟨String.toList_injective hab, hrs⟩

section Listed

variable {α : Type} {f : α → List Char} {close : Char} {as bs : List α} {r s : List Char}

-- An item is followed by a comma or by what closes the list, so no number goes on behind it.
lemma stops_listed (hclose : close.isDigit = false) :
    Stops (as.flatMap (fun a => ',' :: f a) ++ close :: r) := by
  cases as with
  | nil =>
    rintro _ ⟨⟩
    exact hclose
  | cons a as =>
    rintro _ ⟨⟩
    decide

lemma listed_append_inj (hclose : close.isDigit = false) (hcomma : close ≠ ',')
    (hf : ∀ a ∈ as, ∀ b ∈ bs, ∀ r s, Stops r → Stops s → f a ++ r = f b ++ s → a = b ∧ r = s)
    (h : as.flatMap (fun a => ',' :: f a) ++ close :: r =
      bs.flatMap (fun b => ',' :: f b) ++ close :: s) : as = bs ∧ r = s := by
  induction as generalizing bs with
  | nil =>
    cases bs with
    | nil => exact ⟨rfl, (List.cons.inj h).2⟩
    | cons b bs => exact absurd (List.cons.inj h).1 hcomma
  | cons a as ih =>
    cases bs with
    | nil => exact absurd (List.cons.inj h).1.symm hcomma
    | cons b bs =>
      simp only [List.flatMap_cons, List.append_assoc, List.cons_append] at h
      obtain ⟨rfl, hrest⟩ := hf a List.mem_cons_self b List.mem_cons_self _ _
        (stops_listed hclose) (stops_listed hclose) (List.cons.inj h).2
      obtain ⟨rfl, hrs⟩ := ih (fun a ha b hb => hf a (.tail _ ha) b (.tail _ hb)) hrest
      exact ⟨rfl, hrs⟩

/-- A list of texts with commas between them is read in one way up to what closes it, if each of the
texts is read in one way. -/
lemma enclosed_append_inj {t : List α → List Char} (hnil : t [] = [])
    (hcons : ∀ a as, t (a :: as) = f a ++ as.flatMap fun a => ',' :: f a)
    (hclose : close.isDigit = false) (hcomma : close ≠ ',')
    (hne : ∀ a ∈ as ++ bs, ∀ r s, f a ++ r ≠ close :: s)
    (hf : ∀ a ∈ as, ∀ b ∈ bs, ∀ r s, Stops r → Stops s → f a ++ r = f b ++ s → a = b ∧ r = s)
    (h : t as ++ close :: r = t bs ++ close :: s) : as = bs ∧ r = s := by
  cases as with
  | nil =>
    cases bs with
    | nil =>
      rw [hnil] at h
      exact ⟨rfl, (List.cons.inj h).2⟩
    | cons b bs =>
      rw [hnil, hcons, List.append_assoc] at h
      exact absurd h.symm (hne b (by simp) _ _)
  | cons a as =>
    cases bs with
    | nil =>
      rw [hnil, hcons, List.append_assoc] at h
      exact absurd h (hne a (by simp) _ _)
    | cons b bs =>
      rw [hcons, hcons, List.append_assoc, List.append_assoc] at h
      obtain ⟨rfl, hrest⟩ := hf a List.mem_cons_self b List.mem_cons_self _ _
        (stops_listed hclose) (stops_listed hclose) h
      obtain ⟨rfl, hrs⟩ := listed_append_inj hclose hcomma
        (fun a ha b hb => hf a (.tail _ ha) b (.tail _ hb)) hrest
      exact ⟨rfl, hrs⟩

end Listed

/-! ### Documents -/

/-- One field of an object. -/
def memberChars (field : String × Json) : List Char :=
  stringChars field.1 ++ ':' :: field.2.chars

lemma itemChars_cons (item : Json) (items : List Json) :
    itemChars (item :: items) = item.chars ++ items.flatMap fun item => ',' :: item.chars := by
  induction items generalizing item with
  | nil => rw [itemChars, List.flatMap_nil, List.append_nil]
  | cons next items ih => rw [itemChars, ih, List.flatMap_cons, List.cons_append]; nofun

lemma fieldChars_cons (field : String × Json) (fields : List (String × Json)) :
    fieldChars (field :: fields) =
      memberChars field ++ fields.flatMap fun field => ',' :: memberChars field := by
  induction fields generalizing field with
  | nil => rw [fieldChars, List.flatMap_nil, List.append_nil, memberChars]
  | cons next fields ih =>
    rw [fieldChars, ih]
    · simp [memberChars]
    · nofun

/-- What tells the forms of documents apart: the first character, but for the two truth values, and
for the digits and the minus of numbers. -/
def lead : Json → Char
  | .null => 'n'
  | .bool _ => 't'
  | .int _ | .double _ => '-'
  | .string _ => '"'
  | .array _ => '['
  | .object _ => '\x7b'

def leadOf (c : Char) : Char :=
  if c.isDigit then '-' else if c = 'f' then 't' else c

lemma Exact.exists_chars_eq_cons {j : Json} (h : j.Exact) :
    ∃ c cs, j.chars = c :: cs ∧ leadOf c = j.lead := by
  cases h with
  | null => exact ⟨_, _, rfl, rfl⟩
  | bool b => cases b <;> exact ⟨_, _, rfl, rfl⟩
  | int n =>
    cases n with
    | ofNat n =>
      obtain ⟨d, ds, hd, hdigit⟩ := exists_toDigits_eq_cons n
      exact ⟨d, ds, hd, if_pos hdigit⟩
    | negSucc n => exact ⟨_, _, rfl, rfl⟩
  | string s => exact ⟨_, _, rfl, rfl⟩
  | array h => exact ⟨_, _, rfl, rfl⟩
  | object h => exact ⟨_, _, rfl, rfl⟩

lemma Exact.lead_eq {j k : Json} (hj : j.Exact) (hk : k.Exact) {r s : List Char}
    (h : j.chars ++ r = k.chars ++ s) : j.lead = k.lead := by
  obtain ⟨c, cs, hc, hlead⟩ := hj.exists_chars_eq_cons
  obtain ⟨d, ds, hd, hlead'⟩ := hk.exists_chars_eq_cons
  rw [hc, hd] at h
  rw [← hlead, ← hlead', (List.cons.inj h).1]

lemma Exact.chars_append_ne {j : Json} (hj : j.Exact) {close : Char} {r s : List Char}
    (hclose : close = ']' ∨ close = '\x7d') : j.chars ++ r ≠ close :: s := by
  obtain ⟨c, cs, hc, hlead⟩ := hj.exists_chars_eq_cons
  rw [hc]
  intro h
  obtain ⟨rfl, -⟩ := List.cons.inj h
  rcases hclose with rfl | rfl <;> cases hj <;> simp [lead, leadOf] at hlead

lemma itemChars_append_inj {items items' : List Json} (hexact : ∀ j ∈ items, j.Exact)
    (hexact' : ∀ j ∈ items', j.Exact) (hitems : ∀ j ∈ items, j.ReadInOneWay) {r s : List Char}
    (h : itemChars items ++ ']' :: r = itemChars items' ++ ']' :: s) : items = items' ∧ r = s := by
  refine enclosed_append_inj rfl itemChars_cons (by decide) (by decide) ?_ ?_ h
  · intro j hj r s
    have hexact : j.Exact := (List.mem_append.1 hj).elim (hexact j) (hexact' j)
    exact hexact.chars_append_ne (.inl rfl)
  · exact fun j hj k hk => hitems j hj k (hexact' k hk)

lemma memberChars_append_inj {f g : String × Json} (hexact : g.2.Exact) (hf : f.2.ReadInOneWay)
    {r s : List Char} (hr : Stops r) (hs : Stops s) (h : memberChars f ++ r = memberChars g ++ s) :
    f = g ∧ r = s := by
  simp only [memberChars, List.append_assoc, List.cons_append] at h
  obtain ⟨hkey, hrest⟩ := stringChars_append_inj h
  obtain ⟨hvalue, hrs⟩ := hf _ hexact r s hr hs (List.cons.inj hrest).2
  exact ⟨Prod.ext hkey hvalue, hrs⟩

lemma fieldChars_append_inj {fields fields' : List (String × Json)}
    (hexact' : ∀ f ∈ fields', f.2.Exact) (hfields : ∀ f ∈ fields, f.2.ReadInOneWay) {r s : List Char}
    (h : fieldChars fields ++ '\x7d' :: r = fieldChars fields' ++ '\x7d' :: s) :
    fields = fields' ∧ r = s := by
  refine enclosed_append_inj rfl fieldChars_cons (by decide) (by decide) ?_ ?_ h
  · rintro f - r s ⟨⟩
  · exact fun f hf g hg r s => memberChars_append_inj (hexact' g hg) (hfields f hf)

/-- A document without doubles can be told from its compact form and from where this ends. -/
theorem Exact.readInOneWay {j : Json} (hj : j.Exact) : j.ReadInOneWay := by
  -- In each case `lead` leaves the other document no other form.
  induction hj with
  | null =>
    intro k hk r s hr hs h
    have hlead := Exact.null.lead_eq hk h
    cases hk with
    | null => exact ⟨rfl, List.append_cancel_left h⟩
    | _ => simp [lead] at hlead
  | bool a =>
    intro k hk r s hr hs h
    have hlead := (Exact.bool a).lead_eq hk h
    cases hk with
    | bool b => cases a <;> cases b <;> simp_all [chars]
    | _ => simp [lead] at hlead
  | int m =>
    intro k hk r s hr hs h
    have hlead := (Exact.int m).lead_eq hk h
    cases hk with
    | int n =>
      obtain ⟨rfl, hrs⟩ := intChars_append_inj hr hs h
      exact ⟨rfl, hrs⟩
    | _ => simp [lead] at hlead
  | string a =>
    intro k hk r s hr hs h
    have hlead := (Exact.string a).lead_eq hk h
    cases hk with
    | string b =>
      obtain ⟨rfl, hrs⟩ := stringChars_append_inj h
      exact ⟨rfl, hrs⟩
    | _ => simp [lead] at hlead
  | array hitems ih =>
    intro k hk r s hr hs h
    have hlead := (Exact.array hitems).lead_eq hk h
    cases hk with
    | array hitems' =>
      simp only [chars, List.cons_append, List.append_assoc, List.nil_append, List.cons.injEq,
        true_and] at h
      obtain ⟨rfl, hrs⟩ := itemChars_append_inj hitems hitems' ih h
      exact ⟨rfl, hrs⟩
    | _ => simp [lead] at hlead
  | object hfields ih =>
    intro k hk r s hr hs h
    have hlead := (Exact.object hfields).lead_eq hk h
    cases hk with
    | object hfields' =>
      simp only [chars, List.cons_append, List.append_assoc, List.nil_append, List.cons.injEq,
        true_and] at h
      obtain ⟨rfl, hrs⟩ := fieldChars_append_inj hfields' ih h
      exact ⟨rfl, hrs⟩
    | _ => simp [lead] at hlead

/-- Documents without doubles are the same if their compact forms are. -/
theorem Exact.eq_of_compact_eq {j k : Json} (hj : j.Exact) (hk : k.Exact)
    (h : j.compact = k.compact) : j = k := by
  refine (hj.readInOneWay k hk [] [] stops_nil stops_nil ?_).1
  rw [List.append_nil, List.append_nil]
  exact String.ofList_injective h

end Json

end TransactionEngine
