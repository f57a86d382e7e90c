import Parley.Proofs.Number.Monotone
import Parley.Proofs.Pipeline.Frame
import Mathlib.Data.List.Induction
set_option autoImplicit false

/-! # The order in which passes run

Registering a pass puts it where a stable sort by threshold puts it when it is appended
(`register_stableSort`), so after any number of registrations the pipeline is the stable sort of the
passes in the order in which they came (`ofList_stableSort`); there is only one such list
(`StableSort.unique`). In a pipeline with ascending thresholds the active passes are an initial
segment, and a greater ratio makes it longer. Since ratios grow with the usage, a run at more usage
does what a run at less usage does and then goes on with further passes. -/

namespace Parley

/-! ## Numbers that compare as equal -/

namespace Number

/-- Two numbers at the same place of the line, whatever their kind. -/
def same (a b : Number) : Bool :=
  a.le b && b.le a

theorem same_iff_le {a b : Number} : a.same b = true ↔ a.le b = true ∧ b.le a = true := by
  rw [same, Bool.and_eq_true]

theorem same_self {a : Number} (h : a.place?.isSome = true) : a.same a = true := by
  obtain ⟨p, hp⟩ := Option.isSome_iff_exists.1 h
  have hle : a.le a = true := le_iff.2 ⟨p, p, hp, hp, (Place.le_total p p).elim id id⟩
  exact same_iff_le.2 ⟨hle, hle⟩

end Number

namespace Pipeline

/-! ## Stable sorting -/

/-- Thresholds do not go down from one pass to a later one. -/
def Ascending (pipeline : Pipeline) : Prop :=
  pipeline.Pairwise fun p q => p.threshold.le q.threshold = true

/-- No threshold is missing from the line of numbers. -/
def Placed (passes : List Pass) : Prop :=
  ∀ p ∈ passes, p.threshold.place?.isSome = true

instance (passes : List Pass) : Decidable (Placed passes) :=
  inferInstanceAs (Decidable (∀ p ∈ passes, p.threshold.place?.isSome = true))

/-- The passes that stand at a threshold, in their order. -/
def passesAt (t : Number) (passes : List Pass) : List Pass :=
  passes.filter fun p => p.threshold.same t

theorem passesAt_cons (t : Number) (p : Pass) (rest : List Pass) :
    passesAt t (p :: rest)
      = if p.threshold.same t = true then p :: passesAt t rest else passesAt t rest :=
  List.filter_cons

theorem passesAt_append (t : Number) (passes more : List Pass) :
    passesAt t (passes ++ more) = passesAt t passes ++ passesAt t more :=
  List.filter_append passes more

/-- The passes in the order of their thresholds. No pass is lost or comes up more often than
    before, and passes with equal thresholds stay in the order in which they were. -/
structure StableSort (passes sorted : List Pass) : Prop where
  ascending : Ascending sorted
  perm : sorted.Perm passes
  stable : ∀ t : Number, passesAt t sorted = passesAt t passes

theorem StableSort.placed {passes sorted : List Pass} (h : StableSort passes sorted)
    (hplaced : Placed passes) : Placed sorted :=
  fun p hp => hplaced p (h.perm.subset hp)

/-- The first of two sorted lists of the same passes begins with a pass that stands at the threshold
    of the first pass of the other one. -/
theorem same_of_ascending {p q : Pass} {rest rest' : List Pass} (h : Ascending (p :: rest))
    (h' : Ascending (q :: rest')) (hp : p ∈ q :: rest') (hq : q ∈ p :: rest)
    (hplaced : p.threshold.place?.isSome = true) : q.threshold.same p.threshold = true := by
  rcases List.mem_cons.1 hp with rfl | hp
  · exact Number.same_self hplaced
  · rcases List.mem_cons.1 hq with rfl | hq
    · exact Number.same_self hplaced
    · exact Number.same_iff_le.2
        ⟨(List.pairwise_cons.1 h').1 p hp, (List.pairwise_cons.1 h).1 q hq⟩

/-- There is one stable sort. -/
theorem StableSort.unique {passes sorted sorted' : List Pass} (hplaced : Placed passes)
    (h : StableSort passes sorted) (h' : StableSort passes sorted') : sorted = sorted' := by
  have hperm : sorted.Perm sorted' := h.perm.trans h'.perm.symm
  have hstable : ∀ t : Number, passesAt t sorted = passesAt t sorted' := by
    intro t
    rw [h.stable, h'.stable]
  have hsorted := h.placed hplaced
  have hascending := h.ascending
  have hascending' := h'.ascending
  clear h h' hplaced
  induction sorted generalizing sorted' with
  | nil => exact hperm.nil_eq
  | cons p rest ih =>
      cases sorted' with
      | nil => exact absurd hperm.symm.nil_eq (by simp)
      | cons q rest' =>
          have hp := hsorted p List.mem_cons_self
          have hself := Number.same_self hp
          have hsame := same_of_ascending hascending hascending'
            (hperm.subset List.mem_cons_self) (hperm.symm.subset List.mem_cons_self) hp
          -- both heads stand at the threshold of `p`, so each comes first among the passes there
          have hheads := hstable p.threshold
          rw [passesAt_cons, passesAt_cons, if_pos hself, if_pos hsame] at hheads
          obtain rfl : p = q := (List.cons.inj hheads).1
          congr 1
          refine ih hperm.cons_inv ?_ (fun r hr => hsorted r (List.mem_cons_of_mem _ hr))
            (List.pairwise_cons.1 hascending).2 (List.pairwise_cons.1 hascending').2
          intro t
          have hall := hstable t
          rw [passesAt_cons, passesAt_cons] at hall
          split_ifs at hall
          · exact (List.cons.inj hall).2
          · exact hall

/-! ## Registering a pass -/

theorem register_perm (p : Pass) (pipeline : Pipeline) :
    (register p pipeline).Perm (pipeline ++ [p]) := by
  induction pipeline with
  | nil => exact List.Perm.refl _
  | cons q rest ih =>
      rw [register]
      split_ifs
      · exact (List.perm_append_singleton p (q :: rest)).symm
      · exact ih.cons q

theorem mem_register {p q : Pass} {pipeline : Pipeline} :
    q ∈ register p pipeline ↔ q ∈ pipeline ∨ q = p := by
  rw [(register_perm p pipeline).mem_iff, List.mem_append, List.mem_singleton]

/-- A pass below the first of an ascending pipeline is below all of it. -/
theorem le_of_lt_head {p q : Pass} {rest : List Pass} (h : Ascending (q :: rest))
    (hlt : p.threshold.lt q.threshold = true) :
    ∀ r ∈ q :: rest, p.threshold.le r.threshold = true ∧ ¬ r.threshold.le p.threshold = true := by
  rw [Number.lt, Bool.and_eq_true, Bool.not_eq_true'] at hlt
  obtain ⟨hle, hnot⟩ := hlt
  intro r hr
  rcases List.mem_cons.1 hr with rfl | hr
  · exact ⟨hle, by simp [hnot]⟩
  · have hqr := (List.pairwise_cons.1 h).1 r hr
    refine ⟨Number.le_trans hle hqr, ?_⟩
    intro hrp
    rw [Number.le_trans hqr hrp] at hnot
    exact absurd hnot (by simp)

theorem ascending_register {p : Pass} {pipeline : Pipeline} (hplaced : Placed (pipeline ++ [p]))
    (h : Ascending pipeline) : Ascending (register p pipeline) := by
  induction pipeline with
  | nil => exact List.pairwise_singleton _ _
  | cons q rest ih =>
      rw [register]
      split_ifs with hlt
      · exact List.pairwise_cons.2 ⟨fun r hr => (le_of_lt_head h hlt r hr).1, h⟩
      · obtain ⟨hq, hrest⟩ := List.pairwise_cons.1 h
        refine List.pairwise_cons.2 ⟨?_, ih (fun r hr => hplaced r (List.mem_cons_of_mem _ hr)) hrest⟩
        intro r hr
        rcases mem_register.1 hr with hr | rfl
        · exact hq r hr
        · -- the new pass is not below `q`, so it is at least as high
          have hr := hplaced r (List.mem_append_right _ (List.mem_singleton_self r))
          rw [Number.lt_iff_not_le hr (hplaced q List.mem_cons_self)] at hlt
          simpa using hlt

theorem passesAt_register {p : Pass} {pipeline : Pipeline} (h : Ascending pipeline) (t : Number) :
    passesAt t (register p pipeline) = passesAt t (pipeline ++ [p]) := by
  induction pipeline with
  | nil => rfl
  | cons q rest ih =>
      rw [register]
      split_ifs with hlt
      · rw [passesAt_append, passesAt_cons t p, passesAt_cons t p]
        by_cases hp : p.threshold.same t = true
        · -- nothing in the pipeline stands where `p` does
          have hnone : passesAt t (q :: rest) = [] := by
            rw [passesAt, List.filter_eq_nil_iff]
            intro r hr hrt
            have hrp := Number.le_trans (Number.same_iff_le.1 hrt).1 (Number.same_iff_le.1 hp).2
            exact (le_of_lt_head h hlt r hr).2 hrp
          rw [if_pos hp, if_pos hp, hnone]
          rfl
        · rw [if_neg hp, if_neg hp]
          exact (List.append_nil _).symm
      · rw [List.cons_append, passesAt_cons, passesAt_cons, ih (List.pairwise_cons.1 h).2]

/-- To register a pass is to append it and to sort again. -/
theorem register_stableSort {p : Pass} {pipeline : Pipeline} (hplaced : Placed (pipeline ++ [p]))
    (h : Ascending pipeline) : StableSort (pipeline ++ [p]) (register p pipeline) :=
  ⟨ascending_register hplaced h, register_perm p pipeline, passesAt_register h⟩

theorem StableSort.register {p : Pass} {passes : List Pass} {pipeline : Pipeline}
    (hplaced : Placed (passes ++ [p])) (h : StableSort passes pipeline) :
    StableSort (passes ++ [p]) (register p pipeline) := by
  have hpipeline : Placed (pipeline ++ [p]) := by
    intro q hq
    exact hplaced q ((h.perm.append_right [p]).subset hq)
  obtain ⟨hascending, hperm, hstable⟩ := register_stableSort hpipeline h.ascending
  refine ⟨hascending, hperm.trans (h.perm.append_right [p]), ?_⟩
  intro t
  rw [hstable, passesAt_append, h.stable, passesAt_append]

/-- A pipeline is the stable sort of its passes in the order in which they were registered. -/
theorem ofList_stableSort {passes : List Pass} (hplaced : Placed passes) :
    StableSort passes (ofList passes) := by
  induction passes using List.reverseRecOn with
  | nil => exact ⟨.nil, .nil, fun _ => rfl⟩
  | append_singleton front p ih =>
      have hfront := ih fun q hq => hplaced q (List.mem_append_left _ hq)
      have hlast : ofList (front ++ [p]) = Pipeline.register p (ofList front) := by
        simp [ofList, List.foldl_append]
      rw [hlast]
      exact hfront.register hplaced

/-! ## Active passes -/

theorem active_cons (p : Pass) (rest : List Pass) (r : Number) :
    active (p :: rest) r
      = if p.threshold.le r = true then p :: active rest r else active rest r :=
  List.filter_cons

/-- Behind a pass that is not active no pass is. -/
theorem active_eq_nil {p : Pass} {rest : List Pass} (h : Ascending (p :: rest)) {r : Number}
    (hp : ¬ p.threshold.le r = true) : active rest r = [] := by
  rw [active, List.filter_eq_nil_iff]
  intro q hq hqr
  exact hp (Number.le_trans ((List.pairwise_cons.1 h).1 q hq) hqr)

/-- The active passes are the longest initial segment with thresholds up to the ratio. -/
theorem active_eq_takeWhile {pipeline : Pipeline} (h : Ascending pipeline) (r : Number) :
    active pipeline r = pipeline.takeWhile fun p => p.threshold.le r := by
  induction pipeline with
  | nil => rfl
  | cons p rest ih =>
      rw [active_cons, List.takeWhile_cons]
      by_cases hp : p.threshold.le r = true
      · rw [if_pos hp, if_pos hp, ih (List.pairwise_cons.1 h).2]
      · rw [if_neg hp, if_neg hp, active_eq_nil h hp]

/-- The passes that are active at a ratio open those that are active at a greater one. -/
theorem active_of_le {pipeline : Pipeline} (h : Ascending pipeline) {r r' : Number}
    (hr : r.le r' = true) : active pipeline r <+: active pipeline r' := by
  induction pipeline with
  | nil => exact List.prefix_refl _
  | cons p rest ih =>
      rw [active_cons, active_cons]
      by_cases hp : p.threshold.le r = true
      · rw [if_pos hp, if_pos (Number.le_trans hp hr), List.prefix_cons_inj]
        exact ih (List.pairwise_cons.1 h).2
      · rw [if_neg hp, active_eq_nil h hp]
        exact List.nil_prefix

/-! ## Runs -/

theorem runPasses_append (window : Int) (passes further : List Pass) (done : Compaction) :
    runPasses window (passes ++ further) done
      = (runPasses window passes done).bind (runPasses window further) := by
  induction passes generalizing done with
  | nil => rfl
  | cons p rest ih =>
      rw [List.cons_append, runPasses, runPasses]
      cases p.compact done.messages window with
      | error fault => rfl
      | ok next => exact ih _

/-- **Passes escalate.** After any number of registrations of passes whose thresholds are numbers, the
    pipeline is the stable sort by threshold of the passes in the order of their registration. At
    any ratio the active passes are its longest initial segment with thresholds up to the ratio. Of
    two usages of a limit that have a ratio, the greater one has the active passes of the smaller
    one and then perhaps further ones, and a run there is the run at the smaller usage followed by
    these. -/
theorem ofList_escalates (passes : List Pass) (hplaced : Placed passes) :
    StableSort passes (ofList passes) ∧
    (∀ sorted, StableSort passes sorted → sorted = ofList passes) ∧
    (∀ r : Number, (ofList passes).active r
      = (ofList passes).takeWhile fun p => p.threshold.le r) ∧
    ∀ (usage usage' limit window : Int) (ratio ratio' : Binary64), usage ≤ usage' →
      (Occupancy.mk usage limit window).ratio = .ok ratio →
      (Occupancy.mk usage' limit window).ratio = .ok ratio' →
      ∃ further,
        (ofList passes).active (.float ratio')
          = (ofList passes).active (.float ratio) ++ further ∧
        ∀ messages, (ofList passes).run messages ⟨usage', limit, window⟩
          = ((ofList passes).run messages ⟨usage, limit, window⟩).bind
              (runPasses window further) := by
  have hsort := ofList_stableSort hplaced
  refine ⟨hsort, fun sorted h => h.unique hplaced hsort, active_eq_takeWhile hsort.ascending, ?_⟩
  intro usage usage' limit window ratio ratio' husage hratio hratio'
  have hle := Occupancy.ratio_le_ratio husage hratio hratio'
  obtain ⟨further, hfurther⟩ := active_of_le hsort.ascending hle
  refine ⟨further, hfurther.symm, ?_⟩
  intro messages
  rw [run_eq_runPasses hratio, run_eq_runPasses hratio', ← hfurther, runPasses_append]

/-- Passes at the integer one, at a half, at the float one and at a half again. -/
def mixedPasses : List Pass :=
  [⟨"first", .int 1, .watch⟩, { Pass.pruner {} with name := "second" },
    ⟨"third", .float (.finite false 4503599627370496 (-52)), .watch⟩,
    { Pass.pruner {} with name := "fourth" }]

/-- The two passes at a half come first and are active there. At the full limit the two passes at
    one follow, in the order of their registration. -/
theorem ofList_escalates_mixedPasses :
    Placed mixedPasses ∧ (1 : Int) ≤ 2 ∧
      (Occupancy.mk 1 2 4).ratio = .ok (.finite false 4503599627370496 (-53)) ∧
      (Occupancy.mk 2 2 4).ratio = .ok (.finite false 4503599627370496 (-52)) ∧
      StableSort mixedPasses (ofList mixedPasses) ∧
      names (ofList mixedPasses) = ["second", "fourth", "first", "third"] ∧
      ∃ further, names further = ["first", "third"] ∧
        (ofList mixedPasses).active (.float (.finite false 4503599627370496 (-52)))
          = (ofList mixedPasses).active (.float (.finite false 4503599627370496 (-53)))
            ++ further := by
  have hplaced : Placed mixedPasses := by decide +kernel
  have hhalf : (Occupancy.mk 1 2 4).ratio = .ok (.finite false 4503599627370496 (-53)) := by
    decide +kernel
  have hone : (Occupancy.mk 2 2 4).ratio = .ok (.finite false 4503599627370496 (-52)) := by
    decide +kernel
  obtain ⟨hsort, -, -, hescalates⟩ := ofList_escalates mixedPasses hplaced
  obtain ⟨further, hfurther, -⟩ := hescalates 1 2 2 4 _ _ (by decide) hhalf hone
  refine ⟨hplaced, by decide, hhalf, hone, hsort, by decide +kernel, further, ?_, hfurther⟩
  have hnames : names ((ofList mixedPasses).active
      (.float (.finite false 4503599627370496 (-52)))) = ["second", "fourth", "first", "third"] := by
    decide +kernel
  have hstart : names ((ofList mixedPasses).active
      (.float (.finite false 4503599627370496 (-53)))) = ["second", "fourth"] := by
    decide +kernel
  rw [hfurther, names, List.map_append, ← names, hstart] at hnames
  exact (List.append_right_inj _).1 hnames

end Pipeline

end Parley
