import Mathlib.Data.List.Chain
import TransactionEngine.Command.Regular
import TransactionEngine.Proofs.EqualValues
import TransactionEngine.Proofs.Outcomes

/-!
# Comparisons along a run

The commands that compare look at values that stand next to each other. Being of one kind is
transitive, and so is being equal; so are coming before and coming after where names tell the types of
all objects apart. There what these commands say of neighbours holds of any two values of the run,
however far apart they are.
-/

namespace TransactionEngine

/-- What takes the place of the run, unless the command failed. -/
def Applied.results? : Applied → Option (List Value)
  | .done results _ => some results
  | .failed .. => none

namespace RegularCommand

/-- The command fails on values of different kinds. It says of values of one kind whether each is in
this order with all that come after it, if names tell the types of their objects apart. -/
structure Orders (host : Host) (c : RegularCommand) (order : Ordering) (run : List Value) :
    Prop where
  mixed : (∃ e, c.apply host run = .failed e run [] ∧ e.kind = .invalidArgument) ↔
    ∃ v ∈ run, ∃ w ∈ run, v.kind ≠ w.kind
  alike : (∀ v ∈ run, ∀ w ∈ run, v.kind = w.kind) → ∃ b, c.apply host run = .done [.bool b] [] ∧
    (Value.TypesApart run → (b = true ↔ run.Pairwise fun v w => v.compare w = order))

/-- The order that a command which compares values looks for. -/
inductive Seeks : RegularCommand → Ordering → Prop
  | eq : Seeks eq .eq
  | lt : Seeks lt .lt
  | gt : Seeks gt .gt

variable {host : Host} {c d : RegularCommand} {related : Value → Value → Bool} {order : Ordering}
  {run : List Value} {v w : Value}

lemma adjacent_iff_isChain : adjacent related run = true ↔ run.IsChain (related · · = true) := by
  fun_induction adjacent related run with
  | case1 v w vs ih => rw [Bool.and_eq_true, ih, List.isChain_cons_cons]
  | case2 run hrun =>
    match run with
    | [] => simp
    | [v] => simp
    | v :: w :: vs => exact absurd rfl (hrun v w vs)

lemma requireOneKind_iff_isChain :
    requireOneKind c run = .ok () ↔ run.IsChain (fun v w => v.kind = w.kind) := by
  fun_induction requireOneKind c run with
  | case1 v w vs h ih => rw [ih, List.isChain_cons_cons, and_iff_right h]
  | case2 v w vs h => simp [h]
  | case3 run hrun =>
    match run with
    | [] => simp
    | [v] => simp
    | v :: w :: vs => exact absurd rfl (hrun v w vs)

lemma kind_of_requireOneKind {e : Error} (h : requireOneKind c run = .error e) :
    e.kind = .invalidArgument := by
  fun_induction requireOneKind c run with
  | case1 v w vs _ ih => exact ih h
  | case2 v w vs =>
    cases h
    rfl
  | case3 => cases h

/-- A comparison that comes to a transitive relation holds between neighbours exactly if it holds
between all that come one after the other. -/
lemma adjacent_compare_iff {r : Value → Value → Prop} [IsTrans Value r]
    (h : ∀ v ∈ run, ∀ w ∈ run, (v.compare w = order ↔ r v w)) :
    adjacent (fun v w => v.compare w == order) run = true ↔
      run.Pairwise fun v w => v.compare w = order := by
  have hchain : run.IsChain (fun v w => v.compare w = order) ↔ run.IsChain r :=
    List.IsChain.iff_of_mem_imp fun v w hv hw => h v hv w hw
  rw [adjacent_iff_isChain]
  simp only [beq_iff_eq]
  rw [hchain, List.isChain_iff_pairwise]
  exact ⟨fun hp => hp.imp_of_mem fun hv hw => (h _ hv _ hw).2,
    fun hp => hp.imp_of_mem fun hv hw => (h _ hv _ hw).1⟩

lemma pairwise_iff_forall {r : Value → Value → Prop} (hrefl : ∀ v, r v v)
    (hsymm : ∀ v w, r v w → r w v) : run.Pairwise r ↔ ∀ v ∈ run, ∀ w ∈ run, r v w := by
  have : Std.Symm r := ⟨hsymm⟩
  refine ⟨fun h v hv w hw => ?_, fun h => List.pairwise_of_forall_mem_list h⟩
  exact h.forall_of_forall (fun v _ => hrefl v) hv hw

lemma requireOneKind_eq_ok_iff :
    requireOneKind c run = .ok () ↔ ∀ v ∈ run, ∀ w ∈ run, v.kind = w.kind := by
  have : IsTrans Value fun v w => v.kind = w.kind := ⟨fun _ _ _ h h' => h.trans h'⟩
  rw [requireOneKind_iff_isChain, List.isChain_iff_pairwise]
  exact pairwise_iff_forall (fun _ => rfl) fun _ _ h => h.symm

/-! ### What the commands come to -/

lemma single_eq_done_iff {x : Except Error Value} :
    Applied.single run x = .done [v] [] ↔ x = .ok v := by
  cases x <;> simp [Applied.single]

lemma chain_eq_ok_iff :
    chain c related run = .ok v ↔ run ≠ [] ∧ .bool (adjacent related run) = v := by
  cases run <;> simp [chain]

lemma ordered_eq_ok_iff : ordered c related run = .ok v ↔
    requireOneKind c run = .ok () ∧ run ≠ [] ∧ .bool (adjacent related run) = v := by
  rw [ordered, bind_eq_ok_iff]
  simp only [chain_eq_ok_iff]
  exact ⟨fun ⟨_, hkind, h⟩ => ⟨hkind, h⟩, fun ⟨hkind, h⟩ => ⟨(), hkind, h⟩⟩

lemma ordered_eq_error {e : Error} (hkind : requireOneKind c run = .error e) :
    ordered c related run = .error e := by
  rw [ordered, hkind]
  rfl

lemma Seeks.isTrans (hc : Seeks c order) : IsTrans Value fun v w => v.keyOrder w = order := by
  constructor
  intro u v w huv hvw
  cases hc with
  | eq => exact Std.TransCmp.eq_trans huv hvw
  | lt => exact Std.TransCmp.lt_trans huv hvw
  | gt => exact Std.TransCmp.gt_trans huv hvw

lemma Seeks.adjacent_iff (hc : Seeks c order) (ht : Value.TypesApart run) :
    adjacent (fun v w => v.compare w == order) run = true ↔
      run.Pairwise fun v w => v.compare w = order := by
  have := hc.isTrans
  refine adjacent_compare_iff (r := fun v w => v.keyOrder w = order) fun v hv w hw => ?_
  rw [ht.compare_eq hv hw]

/-- The three commands differ in the order that they look for, and in whether kinds matter. -/
lemma Seeks.apply_eq (hc : Seeks c order) (host : Host) (run : List Value) :
    c.apply host run = .single run (if order = .eq
      then chain c (fun v w => v.compare w == order) run
      else ordered c (fun v w => v.compare w == order) run) := by
  cases hc <;> rfl

lemma apply_eq_done (host : Host) (hrun : run ≠ []) :
    eq.apply host run = .done [.bool (adjacent (fun v w => v.compare w == .eq) run)] [] := by
  rw [Seeks.eq.apply_eq, if_pos rfl, single_eq_done_iff, chain_eq_ok_iff]
  exact ⟨hrun, rfl⟩

lemma Seeks.apply_eq_done (hc : Seeks c order) (hne : order ≠ .eq) (host : Host) (hrun : run ≠ [])
    (hkind : requireOneKind c run = .ok ()) :
    c.apply host run = .done [.bool (adjacent (fun v w => v.compare w == order) run)] [] := by
  rw [hc.apply_eq, if_neg hne, single_eq_done_iff, ordered_eq_ok_iff]
  exact ⟨hkind, hrun, rfl⟩

lemma Seeks.apply_eq_failed (hc : Seeks c order) (hne : order ≠ .eq) (host : Host) {e : Error}
    (hkind : requireOneKind c run = .error e) : c.apply host run = .failed e run [] := by
  rw [hc.apply_eq, if_neg hne, ordered_eq_error hkind]
  rfl

lemma Seeks.orders (hc : Seeks c order) (hne : order ≠ .eq) (host : Host) (hrun : run ≠ []) :
    Orders host c order run := by
  cases hkind : requireOneKind c run with
  | ok u =>
    have hdone := hc.apply_eq_done hne host hrun hkind
    have hone := requireOneKind_eq_ok_iff.1 hkind
    constructor
    · rw [hdone]
      refine iff_of_false nofun ?_
      rintro ⟨v, hv, w, hw, hvw⟩
      exact hvw (hone v hv w hw)
    · intro _
      exact ⟨_, hdone, hc.adjacent_iff⟩
  | error e =>
    have hmixed : ¬∀ v ∈ run, ∀ w ∈ run, v.kind = w.kind := by
      rw [← requireOneKind_eq_ok_iff (c := c), hkind]
      exact nofun
    constructor
    · refine iff_of_true ⟨e, hc.apply_eq_failed hne host hkind, kind_of_requireOneKind hkind⟩ ?_
      simpa only [not_forall, exists_prop] using hmixed
    · intro hone
      exact absurd hone hmixed

/-- A command that is true of a run has found its order between the first two values. -/
lemma Seeks.compare_of_apply (hc : Seeks c order) {rest : List Value}
    (h : c.apply host (v :: w :: rest) = .done [.bool true] []) : v.compare w = order := by
  have hadjacent : adjacent (fun v w => v.compare w == order) (v :: w :: rest) = true := by
    rw [hc.apply_eq, single_eq_done_iff] at h
    split at h
    · exact Value.bool.inj (chain_eq_ok_iff.1 h).2
    · exact Value.bool.inj (ordered_eq_ok_iff.1 h).2.2
  rw [adjacent, Bool.and_eq_true, beq_iff_eq] at hadjacent
  exact hadjacent.1

lemma seeks_unique {o : Ordering} (hc : Seeks c o) (hd : Seeks d o) : c = d := by
  cases hc <;> cases hd <;> rfl

/-- Looked at from its end, a run that goes down goes up. -/
lemma adjacent_gt_eq (run : List Value) : adjacent (fun v w => v.compare w == .gt) run =
    adjacent (fun v w => v.compare w == .lt) run.reverse := by
  rw [Bool.eq_iff_iff, adjacent_iff_isChain, adjacent_iff_isChain, List.isChain_reverse]
  simp only [beq_iff_eq, Std.OrientedCmp.gt_iff_lt]

/-- Equal neighbours have one content, and so have all values then. -/
lemma adjacent_eq_iff (hp : Value.PlacesApart run) :
    adjacent (fun v w => v.compare w == .eq) run = true ↔ ∀ v ∈ run, ∀ w ∈ run, (v == w) = true := by
  have : IsTrans Value fun v w => v.content = w.content := ⟨fun _ _ _ h h' => h.trans h'⟩
  rw [adjacent_compare_iff fun v hv w hw => Value.compare_eq_iff v w
    (Value.forall_parts_of_mem hp hv hw)]
  simp only [Value.beq_iff_compare]
  exact pairwise_iff_forall Value.compare_self fun _ _ => Std.OrientedCmp.eq_symm

lemma results_apply_gt (host : Host) (hrun : run ≠ []) :
    (gt.apply host run).results? = (lt.apply host run.reverse).results? := by
  have hreverse : run.reverse ≠ [] := List.reverse_ne_nil_iff.2 hrun
  have hkinds : requireOneKind gt run = .ok () ↔ requireOneKind lt run.reverse = .ok () := by
    simp only [requireOneKind_eq_ok_iff, List.mem_reverse]
  cases hgt : requireOneKind gt run with
  | ok u =>
    rw [Seeks.gt.apply_eq_done nofun host hrun hgt, adjacent_gt_eq,
      Seeks.lt.apply_eq_done nofun host hreverse (hkinds.1 hgt)]
  | error e =>
    cases hlt : requireOneKind lt run.reverse with
    | ok u =>
      rw [hkinds.2 hlt] at hgt
      cases hgt
    | error e' =>
      rw [Seeks.gt.apply_eq_failed nofun host hgt, Seeks.lt.apply_eq_failed nofun host hlt]
      rfl

/-- On every run `eq` says whether all values are equal. The two commands that order values fail if
two values differ in kind, however far apart, and else say whether each value is before, or after,
all that come later, as far as names tell the types of their objects apart; the one says of a run
what the other says of it from its end. No two of the three are true of one run of two values or
more. -/
theorem comparisons_hold_of_all_pairs (host : Host) (run : List Value) (hrun : run ≠ []) :
    (∃ b, eq.apply host run = .done [.bool b] [] ∧ (Value.PlacesApart run →
        (b = true ↔ ∀ v ∈ run, ∀ w ∈ run, (v == w) = true))) ∧
      Orders host lt .lt run ∧ Orders host gt .gt run ∧
      (gt.apply host run).results? = (lt.apply host run.reverse).results? ∧
      (2 ≤ run.length → ∀ c ∈ [eq, lt, gt], ∀ d ∈ [eq, lt, gt],
        c.apply host run = .done [.bool true] [] → d.apply host run = .done [.bool true] [] →
        c = d) := by
  refine ⟨⟨_, apply_eq_done host hrun, adjacent_eq_iff⟩, Seeks.lt.orders nofun host hrun,
    Seeks.gt.orders nofun host hrun, results_apply_gt host hrun, ?_⟩
  have hseeks (c : RegularCommand) (hc : c ∈ [eq, lt, gt]) : ∃ order, Seeks c order := by
    simp only [List.mem_cons, List.not_mem_nil, or_false] at hc
    obtain rfl | rfl | rfl := hc
    exacts [⟨_, .eq⟩, ⟨_, .lt⟩, ⟨_, .gt⟩]
  intro hlen c hc d hd hct hdt
  obtain ⟨o, ho⟩ := hseeks c hc
  obtain ⟨p, hp⟩ := hseeks d hd
  match run, hlen with
  | v :: w :: rest, _ =>
    rw [← ho.compare_of_apply hct, ← hp.compare_of_apply hdt] at *
    exact seeks_unique ho hp

/-- Named values that go down, by their names first and then by the types of the objects that they
refer to. -/
theorem comparisons_hold_of_all_pairs_down :
    let run : List Value := [.named "b" (.object (.connection 1 7)),
      .named "a" (.object (.set 3 [.int 1])), .named "a" (.object (.plugin 2 "script"))]
    run ≠ [] ∧ Value.TypesApart run ∧ (run.Pairwise fun v w => v.compare w = .gt) ∧
      gt.apply .silent run = .done [.bool true] [] ∧
      (lt.apply .silent run.reverse).results? = some [.bool true] ∧
      lt.apply .silent run ≠ .done [.bool true] [] ∧
      eq.apply .silent run = .done [.bool false] [] := by
  intro run
  have hname (v w : Value) : (Value.named "b" v).compare (.named "a" w) = .gt := by
    have hlabel : compare "b" "a" = .gt := by decide
    rw [Value.compare, hlabel]
    rfl
  have hobject : (Value.named "a" (.object (.set 3 [.int 1]))).compare
      (.named "a" (.object (.plugin 2 "script"))) = .gt := by
    rw [Value.compare, Value.compare_object, Std.ReflOrd.compare_self]
    decide
  have hdown : run.Pairwise fun v w => v.compare w = .gt := by simp [run, hname, hobject]
  have hrun : run ≠ [] := nofun
  have ht : Value.TypesApart run := by decide
  obtain ⟨⟨b, heq, hall⟩, -, hgt, hreverse, hone⟩ := comparisons_hold_of_all_pairs .silent run hrun
  obtain ⟨b', hdone, htrue⟩ := hgt.alike (by decide)
  obtain rfl : b' = true := (htrue ht).2 hdown
  have hfalse : b = false := by
    by_contra hb
    have hequal := (hall ht.placesApart).1 (Bool.not_eq_false b ▸ hb)
    have hfirst := hequal _ (.head _) _ (.tail _ (.head _))
    rw [Value.beq_iff_compare, hname] at hfirst
    cases hfirst
  refine ⟨hrun, ht, hdown, hdone, hreverse.symm.trans (by rw [hdone]; rfl), ?_, hfalse ▸ heq⟩
  intro hlt
  exact absurd (hone (by decide) lt (by simp) gt (by simp) hlt hdone) nofun

/-- Two sets and between them, by where they are, an object of another type that is named as sets
are: each is before the next one, but the first is not before the last. -/
theorem lt_holds_of_neighbours_only :
    let run : List Value := [.object (.set 1 [.int 2]), .object (.plugin 2 "set"),
      .object (.set 3 [.int 1])]
    lt.apply .silent run = .done [.bool true] [] ∧ (∀ v ∈ run, ∀ w ∈ run, v.kind = w.kind) ∧
      ¬run.Pairwise fun v w => v.compare w = .lt := by
  intro run
  refine ⟨by rfl, by decide, by decide⟩

end RegularCommand

end TransactionEngine
