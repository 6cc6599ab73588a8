import GeodesicDescent.Proofs.Exact
import GeodesicDescent.Proofs.Stateful
import GeodesicDescent.Direction.ConjugateGradient

/-!
# What the conjugate gradient rule does

* `steer_eq_ok`: before a search the rule keeps its direction or falls back to the gradient;
* **`zeta_of_weigh`**: whatever the method, the weight applies to a vector that was carried to the
  new point, or to the change of the gradient;
* `learn_eq_ok`, `learn_of_weigh`: after a step the rule waits for a restart, or combines that
  vector with the gradient;
* **`abs_sigma_le`**: two of the methods keep the weight within the ratio of the squared gradients.
-/

namespace GeodesicDescent

open Stateful

variable {K ρ α : Type}

namespace Steering

variable {h h' : Heading K ρ} {a : α}

theorem ofChecked_eq_ok {m : Checked α} :
    (ofChecked m : Steering K ρ α) h = (.ok a, h') ↔ m = .ok a ∧ h' = h := by
  rw [ofChecked, pair_eq_ok, seen_eq_ok, eq_comm (a := h')]

theorem ofCached_eq_ok {m : Cached K α} :
    (ofCached m : Steering K ρ α) h = (.ok a, h') ↔
      ∃ c, m h.cache = (.ok a, c) ∧ h' = { h with cache := c } := by
  unfold ofCached
  rcases m h.cache with ⟨r, c⟩
  exact part_eq_ok (fun c => { h with cache := c }) seen_eq_ok

end Steering

namespace ConjugateGradient

variable [Scalar K] {M : Manifold K} {it : Iterate K} {h h' : Heading K (ConjugateGradient K)}

/-- Whether the rule restarts, given the slope of the direction that it kept. -/
def restarts (r : ConjugateGradient K) (iteration : Nat) (slope : K) : Bool :=
  r.config.restartsAt iteration || decide (-Scalar.epsilon ≤ slope)

theorem steer_eq_ok {a : Unit} : steer M it h = (.ok a, h') ↔
    ∃ slope, M.inner it.point h.direction it.gradient = .ok slope ∧ h' = { h with
      rule := { h.rule with restarted := h.rule.restarts it.iteration slope }
      direction := if h.rule.restarts it.iteration slope then Vec.neg it.gradient
        else h.direction } := by
  simp only [steer, bind_eq_ok, get_apply, ok_eq_ok, Steering.ofChecked_eq_ok, set_apply]
  constructor
  · rintro ⟨_, _, ⟨rfl, rfl⟩, slope, _, ⟨hslope, rfl⟩, -, rfl⟩
    exact ⟨slope, hslope, rfl⟩
  · rintro ⟨slope, hslope, rfl⟩
    exact ⟨h, h, ⟨rfl, rfl⟩, slope, h, ⟨hslope, rfl⟩, trivial, rfl⟩

/-- A vector is carried to the next point through a cache with `P`. -/
def Carried (M : Manifold K) (it : Iterate K) (P : Cache K → Prop) (v image : Vec K) : Prop :=
  ∃ c c', P c ∧ M.transport it.point it.displacement it.nextPoint v c = (.ok image, c')

section Weigh

variable {P : Cache K → Prop} {c c' : Cache K} {d : Vec K} {method : CGMethod} {w : Weighing K}

/-- **The weight applies to the direction carried to the next point, or to the gradient there less
the old one carried to it.** -/
theorem zeta_of_weigh
    (hkeep : ∀ v, Keeps P (M.transport it.point it.displacement it.nextPoint v)) (hc : P c)
    (h : weigh M it d method c = (.ok w, c')) : Carried M it P d w.zeta ∨
      ∃ image, Carried M it P it.gradient image ∧
        Vec.sub it.nextGradient image = .ok w.zeta := by
  simp only [weigh, bind_eq_ok, lift_eq_ok] at h
  obtain ⟨oldSquared, _, ⟨-, rfl⟩, h⟩ := h
  cases method with
  | fletcherReeves =>
    simp only [bind_eq_ok, lift_eq_ok, pure_apply, ok_eq_ok] at h
    obtain ⟨_, _, ⟨-, rfl⟩, zeta, c₁, hzeta, rfl, -⟩ := h
    exact .inl ⟨_, c₁, hc, hzeta⟩
  | polakRibiereMod =>
    simp only [bind_eq_ok, lift_eq_ok] at h
    obtain ⟨image, c₁, himage, change, _, ⟨hchange, rfl⟩, _, _, ⟨-, rfl⟩, h⟩ := h
    split_ifs at h
    · cases h
      exact .inr ⟨image, ⟨_, _, hc, himage⟩, hchange⟩
    · obtain ⟨zeta, c₂, hzeta, h⟩ := bind_eq_ok.1 h
      cases h
      exact .inl ⟨_, _, (hkeep _).of_eq hc himage, hzeta⟩
  | hestenesStiefel =>
    simp only [bind_eq_ok, lift_eq_ok, pure_apply, ok_eq_ok] at h
    obtain ⟨zeta, c₁, hzeta, _, _, -, _, _, -, _, _, -, _, _, -, rfl, -⟩ := h
    exact .inl ⟨_, c₁, hc, hzeta⟩
  | frPr =>
    simp only [bind_eq_ok, lift_eq_ok, pure_apply, ok_eq_ok] at h
    obtain ⟨image, c₁, himage, _, _, ⟨-, rfl⟩, _, _, ⟨-, rfl⟩, _, _, ⟨-, rfl⟩, zeta, c₂, hzeta,
      rfl, -⟩ := h
    exact .inl ⟨_, _, (hkeep _).of_eq hc himage, hzeta⟩
  | daiYuan =>
    simp only [bind_eq_ok, lift_eq_ok, pure_apply, ok_eq_ok] at h
    obtain ⟨zeta, c₁, hzeta, _, _, -, _, _, -, _, _, -, _, _, -, rfl, -⟩ := h
    exact .inl ⟨_, c₁, hc, hzeta⟩
  | hagerZhang =>
    simp only [bind_eq_ok, lift_eq_ok, pure_apply, ok_eq_ok] at h
    obtain ⟨zeta, c₁, hzeta, _, _, -, _, _, -, _, _, -, _, _, -, _, _, -, _, _, -, rfl, -⟩ := h
    exact .inl ⟨_, c₁, hc, hzeta⟩

theorem keeps_weigh
    (hkeep : ∀ v, Keeps P (M.transport it.point it.displacement it.nextPoint v)) :
    Keeps P (weigh M it d method) := by
  refine keeps_bind (keeps_lift _) fun oldSquared => ?_
  cases method with
  | fletcherReeves =>
    exact keeps_bind (keeps_lift _) fun _ => keeps_bind (hkeep d) fun _ => keeps_pure _
  | polakRibiereMod =>
    refine keeps_bind (hkeep _) fun _ => keeps_bind (keeps_lift _) fun _ => ?_
    refine keeps_bind (keeps_lift _) fun _ => keeps_ite (keeps_pure _) ?_
    exact keeps_bind (hkeep d) fun _ => keeps_pure _
  | hestenesStiefel =>
    refine keeps_bind (hkeep d) fun _ => keeps_bind (hkeep _) fun _ => ?_
    refine keeps_bind (keeps_lift _) fun _ => keeps_bind (keeps_lift _) fun _ => ?_
    exact keeps_bind (keeps_lift _) fun _ => keeps_pure _
  | frPr =>
    refine keeps_bind (hkeep _) fun _ => keeps_bind (keeps_lift _) fun _ => ?_
    refine keeps_bind (keeps_lift _) fun _ => keeps_bind (keeps_lift _) fun _ => ?_
    exact keeps_bind (hkeep d) fun _ => keeps_pure _
  | daiYuan =>
    refine keeps_bind (hkeep d) fun _ => keeps_bind (hkeep _) fun _ => ?_
    refine keeps_bind (keeps_lift _) fun _ => keeps_bind (keeps_lift _) fun _ => ?_
    exact keeps_bind (keeps_lift _) fun _ => keeps_pure _
  | hagerZhang =>
    refine keeps_bind (hkeep d) fun _ => keeps_bind (hkeep _) fun _ => ?_
    refine keeps_bind (keeps_lift _) fun _ => keeps_bind (keeps_lift _) fun _ => ?_
    refine keeps_bind (keeps_lift _) fun _ => keeps_bind (keeps_lift _) fun _ => ?_
    exact keeps_bind (keeps_lift _) fun _ => keeps_pure _

end Weigh

/-- **After a step the rule waits for a restart, or combines what the weight applies to with the
gradient.** -/
theorem learn_eq_ok {a : Unit} (hl : learn M it h = (.ok a, h')) :
    h.rule.config.restartsAt it.iteration = true ∧ h' = h ∨
      ∃ w c, weigh M it h.direction h.rule.config.method h.cache = (.ok w, c) ∧
        Vec.axpy w.sigma w.zeta (-1) it.nextGradient = .ok h'.direction ∧ h'.cache = c ∧
        h'.rule = { h.rule with
          sigma := w.sigma
          zeta := w.zeta
          gradientChange := w.gradientChange } := by
  simp only [learn, bind_eq_ok, get_apply, ok_eq_ok] at hl
  obtain ⟨_, _, ⟨rfl, rfl⟩, hl⟩ := hl
  by_cases hrestart : h.rule.config.restartsAt it.iteration = true
  · rw [if_pos hrestart] at hl
    cases hl
    exact .inl ⟨hrestart, rfl⟩
  · rw [if_neg hrestart] at hl
    simp only [bind_eq_ok, Steering.ofCached_eq_ok, Steering.ofChecked_eq_ok] at hl
    obtain ⟨w, _, ⟨c, hweigh, rfl⟩, direction, _, ⟨hdirection, rfl⟩, hl⟩ := hl
    split_ifs at hl with hlength
    · cases hl
    · cases hl
      exact .inr ⟨w, c, hweigh, hdirection, rfl, rfl⟩

theorem learn_of_weigh {w : Weighing K} {c : Cache K} {d : Vec K}
    (hgoes : h.rule.config.restartsAt it.iteration = false)
    (hweigh : weigh M it h.direction h.rule.config.method h.cache = (.ok w, c))
    (hd : Vec.axpy w.sigma w.zeta (-1) it.nextGradient = .ok d)
    (hlength : h.direction.length = d.length) : learn M it h = (.ok (), {
      direction := d
      cache := c
      rule := { h.rule with
        sigma := w.sigma
        zeta := w.zeta
        gradientChange := w.gradientChange } }) := by
  refine bind_eq_ok.2 ⟨h, h, rfl, ?_⟩
  rw [hgoes, if_neg Bool.false_ne_true]
  refine bind_eq_ok.2 ⟨w, _, Steering.ofCached_eq_ok.2 ⟨c, hweigh, rfl⟩, ?_⟩
  refine bind_eq_ok.2 ⟨d, _, Steering.ofChecked_eq_ok.2 ⟨hd, rfl⟩, ?_⟩
  rw [if_neg (not_not_intro hlength)]
  rfl

end ConjugateGradient

/-! ## Bounded weights -/

namespace ConjugateGradient

variable [Field K] [LinearOrder K] [IsStrictOrderedRing K]

theorem abs_clamp_le (a b : K) : |if b < -a then -a else if a < b then a else b| ≤ |a| := by
  split_ifs with hlow hhigh
  · exact (abs_neg a).le
  · exact le_refl _
  · exact (abs_le.2 ⟨not_lt.1 hlow, not_lt.1 hhigh⟩).trans (le_abs_self a)

variable [Elementary K] [Tolerances K]

/-- **The weight of Fletcher and Reeves, and the one kept within its bounds, does not exceed the
ratio of the squared gradients.** -/
theorem abs_sigma_le {M : Manifold K} {it : Iterate K} {P : Cache K → Prop} {c c' : Cache K}
    {d : Vec K} {method : CGMethod} {w : Weighing K}
    (hmethod : method = .fletcherReeves ∨ method = .frPr)
    (hkeep : ∀ v, Keeps P (M.transport it.point it.displacement it.nextPoint v)) (hc : P c)
    (h : weigh M it d method c = (.ok w, c')) :
    Carried M it P d w.zeta ∧ ∃ old new, M.inner it.point it.gradient it.gradient = .ok old ∧
      M.inner it.nextPoint it.nextGradient it.nextGradient = .ok new ∧
      |w.sigma| ≤ |new / old| := by
  simp only [weigh, bind_eq_ok, lift_eq_ok] at h
  obtain ⟨old, _, ⟨hold, rfl⟩, h⟩ := h
  obtain rfl | rfl := hmethod
  · simp only [bind_eq_ok, lift_eq_ok, pure_apply, ok_eq_ok] at h
    obtain ⟨new, _, ⟨hnew, rfl⟩, zeta, c₁, hzeta, rfl, -⟩ := h
    exact ⟨⟨_, c₁, hc, hzeta⟩, old, new, hold, hnew, le_refl _⟩
  · simp only [bind_eq_ok, lift_eq_ok, pure_apply, ok_eq_ok] at h
    obtain ⟨image, c₁, himage, _, _, ⟨-, rfl⟩, _, _, ⟨-, rfl⟩, new, _, ⟨hnew, rfl⟩, zeta, c₂,
      hzeta, rfl, -⟩ := h
    exact ⟨⟨_, c₂, (hkeep _).of_eq hc himage, hzeta⟩, old, new, hold, hnew, abs_clamp_le _ _⟩

end ConjugateGradient

end GeodesicDescent
