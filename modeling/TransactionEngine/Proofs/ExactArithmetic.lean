import TransactionEngine.Proofs.CommandsInPlace
import TransactionEngine.Proofs.Moves
import TransactionEngine.Proofs.Outcomes
import TransactionEngine.Proofs.Replays

/-!
# Exact arithmetic

The arithmetic commands fold a run of integers from the left and never wrap: what they come to is
the result of the exact fold, and where a step of it has no result of 64 bits they fail and leave
the run as it was.
-/

namespace TransactionEngine

namespace Arithmetic

/-- The integer is one of 64 bits. -/
def Fits (n : Int) : Prop :=
  Int64.minValue.toInt ≤ n ∧ n ≤ Int64.maxValue.toInt

/-- The step has a quotient: it is neither by zero nor of the least integer by minus one. -/
def Divisible (a : Int) (b : Int64) : Prop :=
  b ≠ 0 ∧ ¬(a = Int64.minValue.toInt ∧ b = -1)

instance (n : Int) : Decidable (Fits n) :=
  inferInstanceAs (Decidable (_ ∧ _))

instance (a : Int) (b : Int64) : Decidable (Divisible a b) :=
  inferInstanceAs (Decidable (_ ∧ _))

/-- A checked operation has a result exactly where `defined` holds, and then it is that of the exact
operation. -/
structure Computes (checked : Int64 → Int64 → Option Int64) (op : Int → Int → Int)
    (defined : Int → Int64 → Prop) : Prop where
  eq_some_iff (a b r : Int64) :
    checked a b = some r ↔ defined a.toInt b ∧ r.toInt = op a.toInt b.toInt
  fits (a b : Int64) : defined a.toInt b → Fits (op a.toInt b.toInt)

lemma fits_toInt (n : Int64) : Fits n.toInt :=
  ⟨n.minValue_le_toInt, n.toInt_le⟩

lemma fits_iff {n : Int} : Fits n ↔ -9223372036854775808 ≤ n ∧ n ≤ 9223372036854775807 :=
  Iff.rfl

lemma narrow_of_fits {n : Int} (h : Fits n) : narrow n = some (Int64.ofInt n) :=
  if_pos h

lemma narrow_eq_some_iff {n : Int} {r : Int64} : narrow n = some r ↔ r.toInt = n := by
  constructor
  · intro h
    obtain ⟨hfits, rfl⟩ := Option.ite_some_none_eq_some.1 h
    have hmax : n < 2 ^ 63 := Int.lt_of_le_of_lt hfits.2 Int64.maxValue.toInt_lt
    exact Int64.toInt_ofInt_of_le (Int64.toInt_minValue ▸ hfits.1) hmax
  · rintro rfl
    rw [narrow_of_fits (fits_toInt r), Int64.ofInt_toInt]

lemma exists_toInt {n : Int} (h : Fits n) : ∃ r : Int64, r.toInt = n :=
  ⟨_, narrow_eq_some_iff.1 (narrow_of_fits h)⟩

lemma Computes.exists_some {checked : Int64 → Int64 → Option Int64} {op : Int → Int → Int}
    {defined : Int → Int64 → Prop} (h : Computes checked op defined) {a b : Int64}
    (hd : defined a.toInt b) : ∃ r, checked a b = some r := by
  obtain ⟨r, hr⟩ := exists_toInt (h.fits a b hd)
  exact ⟨r, (h.eq_some_iff a b r).2 ⟨hd, hr⟩⟩

/-- An operation whose results are narrowed has one where it fits. -/
lemma computes_narrow (op : Int → Int → Int) :
    Computes (fun a b => narrow (op a.toInt b.toInt)) op fun a b => Fits (op a b.toInt) where
  eq_some_iff a b r := by
    rw [narrow_eq_some_iff]
    exact ⟨fun h => ⟨h ▸ fits_toInt r, h⟩, And.right⟩
  fits _ _ := id

/-- The one quotient by another number than zero that does not fit is that of the least integer by
minus one. -/
lemma divisible_iff {a : Int} {b : Int64} (ha : Fits a) :
    Divisible a b ↔ b ≠ 0 ∧ Fits (a.tdiv b.toInt) := by
  refine and_congr_right fun hb => ?_
  have hzero : b.toInt ≠ 0 := fun h => hb (Int64.toInt_inj.1 h)
  have hone : b = -1 ↔ b.toInt = -1 := (Int64.toInt_inj (y := -1)).symm
  have hquotient := Int.natAbs_tdiv a b.toInt
  change _ = a.natAbs / b.toInt.natAbs at hquotient
  rw [hone]
  rw [fits_iff] at ha ⊢
  rw [show Int64.minValue.toInt = -9223372036854775808 from rfl]
  by_cases h1 : b.toInt.natAbs = 1
  · obtain h | h : b.toInt = 1 ∨ b.toInt = -1 := by omega
    · rw [h, Int.tdiv_one]
      omega
    · rw [h, Int.tdiv_neg, Int.tdiv_one]
      omega
  · have hhalf : a.natAbs / b.toInt.natAbs ≤ a.natAbs / 2 :=
      Nat.div_le_div_left (by omega) Nat.two_pos
    omega

lemma div_eq_some_iff {a b r : Int64} :
    div a b = some r ↔ b ≠ 0 ∧ r.toInt = a.toInt.tdiv b.toInt := by
  by_cases hb : b = 0
  · rw [div, if_pos hb]
    exact iff_of_false nofun fun h => h.1 hb
  · rw [div, if_neg hb, narrow_eq_some_iff, and_iff_right hb]

lemma computes_div : Computes div Int.tdiv Divisible where
  eq_some_iff a b r := by
    rw [div_eq_some_iff, divisible_iff (fits_toInt a)]
    exact ⟨fun ⟨hb, h⟩ => ⟨⟨hb, h ▸ fits_toInt r⟩, h⟩, fun ⟨⟨hb, _⟩, h⟩ => ⟨hb, h⟩⟩
  fits a _ h := ((divisible_iff (fits_toInt a)).1 h).2

lemma mod_eq_some_iff {a b r : Int64} :
    mod a b = some r ↔ (∃ q, div a b = some q) ∧ r.toInt = a.toInt.tmod b.toInt := by
  simp only [mod, Option.bind_eq_some_iff, narrow_eq_some_iff, exists_and_right]

lemma fits_tmod (a : Int) {b : Int64} (hb : b ≠ 0) : Fits (a.tmod b.toInt) := by
  have hzero : b.toInt ≠ 0 := fun h => hb (Int64.toInt_inj.1 h)
  have hlt := Nat.mod_lt a.natAbs (Int.natAbs_pos.2 hzero)
  rw [← Int.natAbs_tmod] at hlt
  have hfits := fits_toInt b
  rw [fits_iff] at hfits ⊢
  omega

lemma computes_mod : Computes mod Int.tmod Divisible where
  eq_some_iff a b r := by
    rw [mod_eq_some_iff]
    refine and_congr_left' ⟨fun ⟨q, hq⟩ => ((computes_div.eq_some_iff a b q).1 hq).1, ?_⟩
    exact computes_div.exists_some
  fits a _ h := fits_tmod a.toInt h.1

end Arithmetic

namespace RegularCommand

open Arithmetic

/-- The exact result of folding integers from the left. -/
def exactFold (op : Int → Int → Int) (n : Int) (ns : List Int64) : Int :=
  ns.foldl (fun a d => op a d.toInt) n

/-- Every step of the exact fold is defined. -/
def StepsDefined (op : Int → Int → Int) (defined : Int → Int64 → Prop) (n : Int)
    (ns : List Int64) : Prop :=
  ∀ before d, before ++ [d] <+: ns → defined (exactFold op n before) d

/-- Commands that stop where the exact result does not fit, with the operation that they fold
with. -/
inductive Fitting : RegularCommand → (Int → Int → Int) → Prop
  | add : Fitting .add (· + ·)
  | sub : Fitting .sub (· - ·)
  | mul : Fitting .mul (· * ·)

/-- Commands that stop where there is no quotient, with the operation that they fold with; both round
toward zero. -/
inductive Dividing : RegularCommand → (Int → Int → Int) → Prop
  | div : Dividing .div Int.tdiv
  | mod : Dividing .mod Int.tmod

/-- The command keeps one slot, which holds this integer. In place that is the first slot, and the
others stay. -/
def KeepsInteger (host : Host) (c : RegularCommand) (run : List Value) (n : Int) : Prop :=
  ∃ r : Int64, r.toInt = n ∧ c.apply host run = .done [.int r] [] ∧
    c.inPlace host ⟨run, []⟩ = .ok 1 ⟨run.set 0 (.int r), []⟩

/-- The command fails as its arguments are invalid, and leaves the run as it is, in place too. -/
def RefusesRun (host : Host) (c : RegularCommand) (run : List Value) : Prop :=
  ∃ e, e.kind = .invalidArgument ∧ c.apply host run = .failed e run [] ∧
    c.inPlace host ⟨run, []⟩ = .error e ⟨run, []⟩

/-- The command folds its run with a checked form of the operation. -/
structure Folds (host : Host) (c : RegularCommand) (checked : Int64 → Int64 → Option Int64)
    (op : Int → Int → Int) (defined : Int → Int64 → Prop) : Prop where
  computes : Computes checked op defined
  apply (run : List Value) : c.apply host run = .single run (foldInts c checked run)
  inPlace : c.inPlace host = collapseInPlace (foldInts c checked)

variable {host : Host} {c : RegularCommand} {checked : Int64 → Int64 → Option Int64}
  {op : Int → Int → Int} {defined : Int → Int64 → Prop} {run : List Value}

lemma stepsDefined_cons {n : Int} {d : Int64} {ns : List Int64} :
    StepsDefined op defined n (d :: ns) ↔
      defined n d ∧ StepsDefined op defined (op n d.toInt) ns := by
  constructor
  · intro h
    exact ⟨h [] d (List.prefix_append [d] ns), fun before e hp =>
      h (d :: before) e (List.cons_prefix_cons.2 ⟨rfl, hp⟩)⟩
  · rintro ⟨hd, h⟩ before e hp
    cases before with
    | nil =>
      obtain ⟨rfl, -⟩ := List.cons_prefix_cons.1 hp
      exact hd
    | cons b before =>
      obtain ⟨rfl, hrest⟩ := List.cons_prefix_cons.1 hp
      exact h before e hrest

lemma intStep_int_of_some {n d r : Int64} (h : checked n d = some r) :
    intStep c checked n (.int d) = .ok r := by
  rw [intStep, Value.asInt]
  dsimp only [Bind.bind, Except.bind]
  rw [h]
  rfl

lemma intStep_int_of_none {n d : Int64} (h : checked n d = none) :
    intStep c checked n (.int d) = .error (.arithmetic c.name n d) := by
  rw [intStep, Value.asInt]
  dsimp only [Bind.bind, Except.bind]
  rw [h]

lemma intStep_eq_ok_iff {n r : Int64} {v : Value} :
    intStep c checked n v = .ok r ↔ ∃ d, v = .int d ∧ checked n d = some r := by
  cases v with
  | int d =>
    cases h : checked n d with
    | none =>
      rw [intStep_int_of_none h]
      refine iff_of_false nofun ?_
      rintro ⟨e, ⟨⟩, hr⟩
      cases h.symm.trans hr
    | some m =>
      rw [intStep_int_of_some h]
      constructor
      · rintro ⟨⟩
        exact ⟨d, rfl, h⟩
      · rintro ⟨e, ⟨⟩, hr⟩
        exact congrArg Except.ok (Option.some.inj (h.symm.trans hr))
  | _ => exact iff_of_false nofun nofun

/-- A fold comes out well exactly if it is of integers and all its steps are defined, and then it is
the exact one. -/
lemma foldlM_intStep_eq_ok_iff (h : Computes checked op defined) {n r : Int64} {vs : List Value} :
    vs.foldlM (intStep c checked) n = .ok r ↔
      ∃ ns, vs = ns.map Value.int ∧ StepsDefined op defined n.toInt ns ∧
        r.toInt = exactFold op n.toInt ns := by
  induction vs generalizing n with
  | nil =>
    rw [List.foldlM_nil]
    constructor
    · rintro ⟨⟩
      exact ⟨[], rfl, fun _ _ hp => by simp at hp, rfl⟩
    · rintro ⟨ns, hns, -, hr⟩
      obtain rfl := List.map_eq_nil_iff.1 hns.symm
      exact congrArg Except.ok (Int64.toInt_inj.1 hr.symm)
  | cons v vs ih =>
    simp only [List.foldlM_cons, bind_eq_ok_iff, intStep_eq_ok_iff, ih]
    constructor
    · rintro ⟨m, ⟨d, rfl, hm⟩, ns, rfl, hsteps, hr⟩
      obtain ⟨hd, hop⟩ := (h.eq_some_iff n d m).1 hm
      rw [hop] at hsteps hr
      exact ⟨d :: ns, rfl, stepsDefined_cons.2 ⟨hd, hsteps⟩, hr⟩
    · rintro ⟨ns, hns, hsteps, hr⟩
      obtain ⟨d, ns, rfl, rfl, rfl⟩ := List.map_eq_cons_iff.1 hns.symm
      obtain ⟨hd, hsteps⟩ := stepsDefined_cons.1 hsteps
      obtain ⟨m, hm⟩ := h.exists_some hd
      rw [exactFold, List.foldl_cons, ← ((h.eq_some_iff n d m).1 hm).2] at hr
      rw [← ((h.eq_some_iff n d m).1 hm).2] at hsteps
      exact ⟨m, ⟨d, rfl, hm⟩, ns, rfl, hsteps, hr⟩

lemma fits_exactFold (h : Computes checked op defined) {n : Int64} {ns : List Int64}
    (hs : StepsDefined op defined n.toInt ns) : Fits (exactFold op n.toInt ns) := by
  induction ns generalizing n with
  | nil => exact fits_toInt n
  | cons d ns ih =>
    obtain ⟨hd, hs⟩ := stepsDefined_cons.1 hs
    obtain ⟨m, hm⟩ := exists_toInt (h.fits n d hd)
    rw [← hm] at hs
    rw [exactFold, List.foldl_cons, ← hm]
    exact ih hs

lemma foldInts_eq_ok_iff (h : Computes checked op defined) {v : Value} :
    foldInts c checked run = .ok v ↔
      ∃ n ns r, run = (n :: ns).map Value.int ∧ StepsDefined op defined n.toInt ns ∧
        r.toInt = exactFold op n.toInt ns ∧ v = .int r := by
  cases run with
  | nil => exact iff_of_false nofun nofun
  | cons first rest =>
    rw [foldInts]
    simp only [bind_eq_ok_iff, foldlM_intStep_eq_ok_iff h]
    constructor
    · rintro ⟨n, hn, r, ⟨ns, rfl, hs, hr⟩, ⟨⟩⟩
      exact ⟨n, ns, r, by rw [Value.eq_int_of_asInt hn, List.map_cons], hs, hr, rfl⟩
    · rintro ⟨n, ns, r, hrun, hs, hr, rfl⟩
      obtain ⟨rfl, rfl⟩ := List.cons.inj hrun
      exact ⟨n, rfl, r, ⟨ns, rfl, hs, hr⟩, rfl⟩

lemma kind_of_intStep {n : Int64} {v : Value} {e : Error}
    (h : intStep c checked n v = .error e) : e.kind = .invalidArgument := by
  cases v with
  | int d =>
    cases hr : checked n d with
    | none =>
      rw [intStep_int_of_none hr] at h
      cases h
      rfl
    | some r =>
      rw [intStep_int_of_some hr] at h
      cases h
  | _ =>
    cases h
    rfl

lemma kind_of_foldlM {n : Int64} {vs : List Value} {e : Error}
    (h : vs.foldlM (intStep c checked) n = .error e) : e.kind = .invalidArgument := by
  induction vs generalizing n with
  | nil => cases h
  | cons v vs ih =>
    rw [List.foldlM_cons] at h
    cases hs : intStep c checked n v with
    | ok m =>
      rw [hs] at h
      exact ih h
    | error e' =>
      rw [hs] at h
      cases h
      exact kind_of_intStep hs

/-- A fold that fails does so for its arguments, whether it meets a value of another kind first or a
step without a result. -/
lemma kind_of_foldInts {e : Error} (h : foldInts c checked run = .error e) :
    e.kind = .invalidArgument := by
  cases run with
  | nil =>
    cases h
    rfl
  | cons v vs =>
    cases v with
    | int n =>
      change (vs.foldlM (intStep c checked) n >>= fun r => pure (Value.int r)) = .error e at h
      cases hf : vs.foldlM (intStep c checked) n with
      | ok r =>
        rw [hf] at h
        cases h
      | error e' =>
        rw [hf] at h
        cases h
        exact kind_of_foldlM hf
    | _ =>
      cases h
      rfl

/-! ### What the commands come to -/

namespace Folds

variable (hf : Folds host c checked op defined)

include hf

lemma keeps {r : Int64} (h : foldInts c checked run = .ok (.int r)) :
    KeepsInteger host c run r.toInt := by
  refine ⟨r, rfl, by rw [hf.apply, h]; rfl, ?_⟩
  rw [hf.inPlace, collapseInPlace]
  change EStateM.bind (MonadExcept.ofExcept (foldInts c checked run)) _ _ = _
  rw [h]
  rfl

lemma refuses {e : Error} (h : foldInts c checked run = .error e) : RefusesRun host c run := by
  refine ⟨e, kind_of_foldInts h, by rw [hf.apply, h]; rfl, ?_⟩
  rw [hf.inPlace, collapseInPlace]
  change EStateM.bind (MonadExcept.ofExcept (foldInts c checked run)) _ _ = _
  rw [h]
  rfl

lemma keeps_of_stepsDefined {n : Int64} {ns : List Int64}
    (hs : StepsDefined op defined n.toInt ns) :
    KeepsInteger host c ((n :: ns).map .int) (exactFold op n.toInt ns) := by
  obtain ⟨r, hr⟩ := exists_toInt (fits_exactFold hf.computes hs)
  rw [← hr]
  exact hf.keeps ((foldInts_eq_ok_iff hf.computes).2 ⟨n, ns, r, rfl, hs, hr, rfl⟩)

lemma refuses_of_not_exists
    (hn : ¬∃ n ns, run = (n :: ns).map Value.int ∧ StepsDefined op defined n.toInt ns) :
    RefusesRun host c run := by
  cases h : foldInts c checked run with
  | error e => exact hf.refuses h
  | ok v =>
    obtain ⟨n, ns, r, hrun, hs, -⟩ := (foldInts_eq_ok_iff hf.computes).1 h
    exact absurd ⟨n, ns, hrun, hs⟩ hn

lemma refuses_of_not_stepsDefined {n : Int64} {ns : List Int64}
    (hs : ¬StepsDefined op defined n.toInt ns) : RefusesRun host c ((n :: ns).map .int) := by
  refine hf.refuses_of_not_exists fun ⟨m, ms, hrun, hm⟩ => hs ?_
  obtain ⟨rfl, rfl⟩ :=
    List.cons.inj (List.map_injective_iff.2 (fun _ _ => Value.int.inj) hrun)
  exact hm

lemma refuses_of_kind (hkind : ∃ v ∈ run, v.kind ≠ .int) : RefusesRun host c run := by
  refine hf.refuses_of_not_exists fun ⟨n, ns, hrun, _⟩ => ?_
  obtain ⟨v, hv, hne⟩ := hkind
  rw [hrun] at hv
  obtain ⟨d, -, rfl⟩ := List.mem_map.1 hv
  exact hne rfl

lemma keeps_iff {n : Int64} {ns : List Int64} {m : Int} :
    KeepsInteger host c ((n :: ns).map .int) m ↔
      StepsDefined op defined n.toInt ns ∧ m = exactFold op n.toInt ns := by
  constructor
  · rintro ⟨r, rfl, happly, -⟩
    by_cases hs : StepsDefined op defined n.toInt ns
    · obtain ⟨q, hq, hdone, -⟩ := hf.keeps_of_stepsDefined hs
      rw [hdone] at happly
      cases happly
      exact ⟨hs, hq⟩
    · obtain ⟨e, -, hfailed, -⟩ := hf.refuses_of_not_stepsDefined hs
      rw [hfailed] at happly
      cases happly
  · rintro ⟨hs, rfl⟩
    exact hf.keeps_of_stepsDefined hs

end Folds

lemma Fitting.exists_folds (h : Fitting c op) (host : Host) :
    ∃ checked, Folds host c checked op fun a b => Fits (op a b.toInt) := by
  cases h with
  | add => exact ⟨_, computes_narrow _, fun _ => rfl, rfl⟩
  | sub => exact ⟨_, computes_narrow _, fun _ => rfl, rfl⟩
  | mul => exact ⟨_, computes_narrow _, fun _ => rfl, rfl⟩

lemma Dividing.exists_folds (h : Dividing c op) (host : Host) :
    ∃ checked, Folds host c checked op Divisible := by
  cases h with
  | div => exact ⟨_, computes_div, fun _ => rfl, rfl⟩
  | mod => exact ⟨_, computes_mod, fun _ => rfl, rfl⟩

/-- All steps fit if all beginnings of the fold do. -/
lemma stepsDefined_fits_iff {n : Int64} {ns : List Int64} :
    StepsDefined op (fun a b => Fits (op a b.toInt)) n.toInt ns ↔
      ∀ p, p <+: ns → Fits (exactFold op n.toInt p) := by
  have hstep (p : List Int64) (d : Int64) :
      exactFold op n.toInt (p ++ [d]) = op (exactFold op n.toInt p) d.toInt := by
    rw [exactFold, List.foldl_concat, ← exactFold]
  constructor
  · intro h p hp
    rcases List.eq_nil_or_concat' p with rfl | ⟨q, d, rfl⟩
    · exact fits_toInt n
    · rw [hstep]
      exact h q d hp
  · intro h p d hp
    rw [← hstep]
    exact h _ hp

lemma Dividing.keeps_pair_iff (h : Dividing c op) (host : Host) {a b : Int64} {m : Int} :
    KeepsInteger host c [.int a, .int b] m ↔ Divisible a.toInt b ∧ m = op a.toInt b.toInt := by
  obtain ⟨checked, hf⟩ := h.exists_folds host
  rw [show [Value.int a, .int b] = [a, b].map .int from rfl, hf.keeps_iff, stepsDefined_cons]
  exact and_congr_left' (and_iff_left fun p d hp => by simp at hp)

/-- Arithmetic is exact. Sums, differences and products are those of all integers if they fit after
every step, quotients and remainders round toward zero and fit unless a step is by zero or divides
the least integer by minus one. Whatever else a run holds, the command fails and leaves it as it
was. -/
theorem arithmetic_exact (host : Host) :
    (∀ c op, Fitting c op → ∀ (n : Int64) (ns : List Int64),
      ((∀ p, p <+: ns → Fits (exactFold op n.toInt p)) →
        KeepsInteger host c ((n :: ns).map .int) (exactFold op n.toInt ns)) ∧
      ((∃ p, p <+: ns ∧ ¬Fits (exactFold op n.toInt p)) →
        RefusesRun host c ((n :: ns).map .int))) ∧
    (∀ c op, Dividing c op → ∀ (n : Int64) (ns : List Int64),
      ((¬∃ p d, p ++ [d] <+: ns ∧
          (d = 0 ∨ exactFold op n.toInt p = Int64.minValue.toInt ∧ d = -1)) →
        KeepsInteger host c ((n :: ns).map .int) (exactFold op n.toInt ns)) ∧
      ((∃ p d, p ++ [d] <+: ns ∧
          (d = 0 ∨ exactFold op n.toInt p = Int64.minValue.toInt ∧ d = -1)) →
        RefusesRun host c ((n :: ns).map .int))) ∧
    (∀ a b : Int64,
      ((∃ q, KeepsInteger host div [.int a, .int b] q) ↔
        ∃ r, KeepsInteger host mod [.int a, .int b] r) ∧
      ∀ q r, KeepsInteger host div [.int a, .int b] q →
        KeepsInteger host mod [.int a, .int b] r →
        a.toInt = q * b.toInt + r ∧ r.natAbs < b.toInt.natAbs ∧ (r = 0 ∨ r.sign = a.toInt.sign)) ∧
    (∀ c op, Fitting c op ∨ Dividing c op → ∀ run, (∃ v ∈ run, v.kind ≠ .int) →
      RefusesRun host c run) := by
  refine ⟨fun c op hc n ns => ?_, fun c op hc n ns => ?_, fun a b => ⟨?_, ?_⟩, fun c op hc run => ?_⟩
  · obtain ⟨checked, hf⟩ := hc.exists_folds host
    refine ⟨fun h => hf.keeps_of_stepsDefined (stepsDefined_fits_iff.2 h), ?_⟩
    rintro ⟨p, hp, hn⟩
    exact hf.refuses_of_not_stepsDefined fun hs => hn (stepsDefined_fits_iff.1 hs p hp)
  · obtain ⟨checked, hf⟩ := hc.exists_folds host
    constructor
    · intro h
      refine hf.keeps_of_stepsDefined fun p d hp => ⟨fun hd => ?_, fun hleast => ?_⟩
      · exact h ⟨p, d, hp, .inl hd⟩
      · exact h ⟨p, d, hp, .inr hleast⟩
    · rintro ⟨p, d, hp, hn⟩
      exact hf.refuses_of_not_stepsDefined fun hs => hn.elim (hs p d hp).1 (hs p d hp).2
  · simp only [Dividing.div.keeps_pair_iff, Dividing.mod.keeps_pair_iff, exists_and_left,
      exists_eq, and_true]
  · intro q r hq hr
    obtain ⟨hd, rfl⟩ := (Dividing.div.keeps_pair_iff host).1 hq
    obtain ⟨-, rfl⟩ := (Dividing.mod.keeps_pair_iff host).1 hr
    have hzero : b.toInt ≠ 0 := fun h => hd.1 (Int64.toInt_inj.1 h)
    refine ⟨(Int.tdiv_mul_add_tmod a.toInt b.toInt).symm, ?_, ?_⟩
    · rw [Int.natAbs_tmod]
      exact Nat.mod_lt _ (Int.natAbs_pos.2 hzero)
    · rw [Int.sign_tmod, ← Int.sign_eq_zero_iff_zero, Int.sign_tmod]
      split
      · exact .inl rfl
      · exact .inr rfl
  · intro hkind
    obtain hc | hc := hc
    · obtain ⟨checked, hf⟩ := hc.exists_folds host
      exact hf.refuses_of_kind hkind
    · obtain ⟨checked, hf⟩ := hc.exists_folds host
      exact hf.refuses_of_kind hkind

/-- A sum that is too large only on the way, quotients around the least integer, and a value of
another kind behind the factor zero. -/
theorem arithmetic_exact_corners :
    RefusesRun .silent add ([Int64.maxValue, 1, -1].map .int) ∧
      RefusesRun .silent mod ([Int64.minValue, -1].map .int) ∧
      KeepsInteger .silent div ([Int64.minValue, 2, -1].map .int) 4611686018427387904 ∧
      KeepsInteger .silent div [.int (-7), .int 2] (-3) ∧
      KeepsInteger .silent mod [.int (-7), .int 2] (-1) ∧
      RefusesRun .silent mul [.int 0, .int 1, .nil] := by
  obtain ⟨hfitting, hdividing, hpair, hkind⟩ := arithmetic_exact .silent
  have hquotient : KeepsInteger .silent div [.int (-7), .int 2] (-3) := by
    refine (hdividing div _ .div (-7) [2]).1 ?_
    rintro ⟨p, d, hp, h⟩
    obtain ⟨rfl, rfl⟩ | hp := concat_prefix_concat_iff.1 (show p ++ [d] <+: [] ++ [2] from hp)
    · exact absurd h (by decide)
    · simp at hp
  have hleast : KeepsInteger .silent div ([Int64.minValue, 2, -1].map .int) 4611686018427387904 := by
    refine (hdividing div _ .div _ [2, -1]).1 ?_
    rintro ⟨p, d, hp, h⟩
    obtain ⟨rfl, rfl⟩ | hp := concat_prefix_concat_iff.1 (show p ++ [d] <+: [2] ++ [-1] from hp)
    · exact absurd h (by decide)
    obtain ⟨rfl, rfl⟩ | hp := concat_prefix_concat_iff.1 (show p ++ [d] <+: [] ++ [2] from hp)
    · exact absurd h (by decide)
    · simp at hp
  obtain ⟨r, hr⟩ := (hpair (-7) 2).1.1 ⟨_, hquotient⟩
  obtain rfl : r = -1 := by
    have hsum := ((hpair (-7) 2).2 _ r hquotient hr).1
    rw [show (-7 : Int64).toInt = -7 from rfl, show (2 : Int64).toInt = 2 from rfl] at hsum
    omega
  exact ⟨(hfitting add _ .add _ _).2 ⟨[1], ⟨[-1], rfl⟩, by decide⟩,
    (hdividing mod _ .mod _ _).2 ⟨[], -1, List.prefix_rfl, by decide⟩, hleast, hquotient, hr,
    hkind mul _ (.inl .mul) _ ⟨.nil, by simp, nofun⟩⟩

end RegularCommand

end TransactionEngine
