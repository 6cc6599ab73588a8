import GeodesicDescent.Proofs.LineSearch.Curvature
import GeodesicDescent.Proofs.Run.Directions
import GeodesicDescent.Proofs.Sphere.Outcomes

/-!
# The reflection after a step is known

The last thing that a strong Wolfe search looks at is the slope after the step that it accepts, and
it carries a vector there to see it. So the direction rule, which carries vectors along the same
step, finds the reflection of the two points in the cache.

* `Cache.KeyedBy`, `Cache.Reused`: the kept reflection is that of two points, and was only read;
* **`StrongWolfe.keyedBy_of_search`**: the cache after a search that succeeds;
* `Sphere.computing`: a sphere that computes its reflections in another way;
* `ConjugateGradient.follows_learn_along`: manifolds that carry vectors alike are learnt from alike;
* **`Setup.learn_reuses`**: after a step the rule computes no reflection, or at most one.
-/

namespace GeodesicDescent

open Stateful

/-! ## The reflection slot -/

namespace Cache

variable {K : Type} {c c' : Cache K} {x y : Vec K}

/-- The cache after some lookups that the reflection slot answered. -/
def Reused (c c' : Cache K) : Prop := ∃ n, c' = { c with reuses := c.reuses + n }

theorem Reused.refl (c : Cache K) : c.Reused c := ⟨0, rfl⟩

theorem Reused.next (h : c.Reused c') : c.Reused { c' with reuses := c'.reuses + 1 } := by
  obtain ⟨n, rfl⟩ := h
  exact ⟨n + 1, rfl⟩

theorem Reused.computations_eq (h : c.Reused c') : c'.computations = c.computations := by
  obtain ⟨n, rfl⟩ := h
  rfl

variable [Scalar K]

/-- The kept reflection is the one of these two points. -/
def KeyedBy (c : Cache K) (x y : Vec K) : Prop :=
  ∃ e, c.reflection = some e ∧ (e.source == x) = true ∧ (e.target == y) = true

theorem keyedBy_iff : c.KeyedBy x y ↔ ∃ d, c.reflectionFor? x y = some d := by
  unfold reflectionFor? KeyedBy
  cases c.reflection <;> simp

theorem KeyedBy.reused (h : c.KeyedBy x y) (hc : c.Reused c') : c'.KeyedBy x y := by
  obtain ⟨n, rfl⟩ := hc
  exact h

end Cache

/-! ## The end of a search -/

namespace Sphere

variable {K : Type} [Scalar K] {s : Sphere} {x y ξ v : Vec K} {c c' : Cache K}

theorem keyedBy_of_transport (hx : (x == x) = true) (hy : (y == y) = true)
    (h : s.transport x y ξ c = (.ok v, c')) : c'.KeyedBy x y := by
  generalize hr : (Except.ok v : Checked (Vec K)) = r at h
  cases outcome_transport h with
  | refused => cases hr
  | reused hit => exact Cache.keyedBy_iff.2 ⟨_, hit⟩
  | computed => exact ⟨_, rfl, hx, hy⟩

theorem keyedBy_of_differential {η : Vec K} (hx : (x == x) = true) (hy : (y == y) = true)
    (h : s.differential x η y ξ true c = (.ok v, c')) : c'.KeyedBy x y := by
  obtain ⟨image, c₁, htransport, h⟩ := bind_eq_ok.1 h
  have hkeyed := keyedBy_of_transport hx hy htransport
  split_ifs at h
  · obtain ⟨entry, _, hentry, h⟩ := bind_eq_ok.1 h
    obtain ⟨-, rfl⟩ := lift_eq_ok.1 hentry
    cases h
    exact hkeyed
  · cases h
    exact hkeyed

end Sphere

variable {K σ : Type} [Scalar K] {s : Sphere}

/-- **A search that succeeds leaves the reflection of its start and its end in the cache.** -/
theorem StrongWolfe.keyedBy_of_search {objective : Objective K σ} {usage : Usage}
    {params : SearchParams K} {x gradient ξ : Vec K} {value : K} {w w' : Workspace K σ}
    {a : Accepted K} (hx : (x == x) = true) (ha : (a.point == a.point) = true)
    (h : search ⟨objective, s.manifold, usage⟩ params x value gradient ξ w = (.ok a, w')) :
    w'.cache.KeyedBy x a.point := by
  obtain ⟨slope, -, -, q, t, -, takes, rfl⟩ := search_eq_ok h
  obtain ⟨w₁, d, w₂, -, seen, hwhy⟩ := takes.slope_eq
  obtain ⟨moved, c, hmoved, -, rfl⟩ := slopeAt_eq_ok.1 seen
  have hkeyed : c.KeyedBy x t.point := Sphere.keyedBy_of_differential hx ha hmoved
  -- Whether the slope was flat enough or the step the longest, no other slope was looked at.
  obtain ⟨-, rfl⟩ | ⟨-, -, -, rfl⟩ := hwhy
  · exact hkeyed
  · exact hkeyed

/-! ## What is learnt from a step -/

/-- The headings are the same but for their caches, which `R` relates. -/
structure Heading.SameBut {ρ : Type} (R : Cache K → Cache K → Prop) (h h' : Heading K ρ) :
    Prop where
  direction_eq : h'.direction = h.direction
  rule_eq : h'.rule = h.rule
  cache : R h.cache h'.cache

omit [Scalar K] in
theorem Heading.SameBut.eq {ρ : Type} {P : Cache K → Prop} {h h' : Heading K ρ}
    (hh : h.SameBut (fun c c' => c' = c ∧ P c) h') : h' = h := by
  obtain ⟨direction, cache, rule⟩ := h
  obtain ⟨_, _, _⟩ := h'
  obtain ⟨rfl, rfl, rfl, -⟩ := hh
  rfl

namespace Steering

variable {ρ α : Type} {R : Cache K → Cache K → Prop}

omit [Scalar K] in
theorem follows_ofCached_on {m m' : Cached K α} (hm : Follows R id id m m') :
    Follows (Heading.SameBut (ρ := ρ) R) id id (ofCached m) (ofCached m') := by
  intro h h' hh
  obtain ⟨hend, hcache⟩ := hm h.cache h'.cache hh.cache
  refine ⟨?_, hh.direction_eq, hh.rule_eq, hcache⟩
  calc (m' h'.cache).1.mapError (Fault.map SolverError.geometry)
    _ = (((m h.cache).1.map id).mapError id).mapError (Fault.map SolverError.geometry) := by
      rw [hend]
    _ = (((m h.cache).1.mapError (Fault.map SolverError.geometry)).map id).mapError id := by
      cases (m h.cache).1 <;> rfl

omit [Scalar K] in
theorem follows_ofChecked_on (m : Checked α) :
    Follows (Heading.SameBut (ρ := ρ) R) id id (ofChecked m) (ofChecked m) :=
  fun _ _ hh => ⟨by cases m <;> rfl, hh⟩

end Steering

namespace ConjugateGradient

variable {M M' : Manifold K} {it : Iterate K} {R : Cache K → Cache K → Prop}

theorem follows_weigh (hinner : M'.inner = M.inner)
    (hcarry : ∀ v, Follows R id id (M.transport it.point it.displacement it.nextPoint v)
      (M'.transport it.point it.displacement it.nextPoint v)) (d : Vec K) (method : CGMethod) :
    Follows R id id (weigh M it d method) (weigh M' it d method) := by
  unfold weigh
  rw [hinner]
  refine follows_bind (follows_lift _) fun old _ => ?_
  cases method with
  | fletcherReeves =>
    refine follows_bind (follows_lift _) fun new _ => ?_
    exact follows_bind (hcarry d) fun _ _ => follows_pure rfl
  | polakRibiereMod =>
    refine follows_bind (hcarry _) fun _ _ => follows_bind (follows_lift _) fun _ _ => ?_
    refine follows_bind (follows_lift _) fun _ _ => follows_ite Iff.rfl (follows_pure rfl) ?_
    exact follows_bind (hcarry d) fun _ _ => follows_pure rfl
  | hestenesStiefel =>
    refine follows_bind (hcarry d) fun _ _ => follows_bind (hcarry _) fun _ _ => ?_
    refine follows_bind (follows_lift _) fun _ _ => follows_bind (follows_lift _) fun _ _ => ?_
    exact follows_bind (follows_lift _) fun _ _ => follows_pure rfl
  | frPr =>
    refine follows_bind (hcarry _) fun _ _ => follows_bind (follows_lift _) fun _ _ => ?_
    refine follows_bind (follows_lift _) fun _ _ => follows_bind (follows_lift _) fun _ _ => ?_
    exact follows_bind (hcarry d) fun _ _ => follows_pure rfl
  | daiYuan =>
    refine follows_bind (hcarry d) fun _ _ => follows_bind (hcarry _) fun _ _ => ?_
    refine follows_bind (follows_lift _) fun _ _ => follows_bind (follows_lift _) fun _ _ => ?_
    exact follows_bind (follows_lift _) fun _ _ => follows_pure rfl
  | hagerZhang =>
    refine follows_bind (hcarry d) fun _ _ => follows_bind (hcarry _) fun _ _ => ?_
    refine follows_bind (follows_lift _) fun _ _ => follows_bind (follows_lift _) fun _ _ => ?_
    refine follows_bind (follows_lift _) fun _ _ => follows_bind (follows_lift _) fun _ _ => ?_
    exact follows_bind (follows_lift _) fun _ _ => follows_pure rfl

theorem follows_learn_along (hinner : M'.inner = M.inner)
    (hcarry : ∀ v, Follows R id id (M.transport it.point it.displacement it.nextPoint v)
      (M'.transport it.point it.displacement it.nextPoint v)) :
    Follows (Heading.SameBut R) id id (learn M it) (learn M' it) := by
  refine follows_get_bind fun h h' hh => ?_
  rw [hh.rule_eq, hh.direction_eq]
  refine follows_ite Iff.rfl (follows_pure rfl) ?_
  refine follows_bind (Steering.follows_ofCached_on (follows_weigh hinner hcarry _ _)) fun w _ => ?_
  refine follows_bind (Steering.follows_ofChecked_on _) fun d _ => ?_
  refine follows_ite Iff.rfl (follows_bind (g := id) (follows_throw _) fun _ _ => ?_) ?_
  all_goals exact follows_modify fun s s' hs => ⟨rfl, by rw [hs.rule_eq]; rfl, hs.cache⟩

theorem learn_congr (it : Iterate K) (h : Heading K (ConjugateGradient K)) {P : Cache K → Prop}
    (hinner : M'.inner = M.inner)
    (hkeep : ∀ v, Keeps P (M.transport it.point it.displacement it.nextPoint v))
    (hsame : ∀ v c, P c → M'.transport it.point it.displacement it.nextPoint v c =
      M.transport it.point it.displacement it.nextPoint v c) (hc : P h.cache) :
    learn M' it h = learn M it h ∧ P (learn M it h).2.cache := by
  have hfollows := follows_learn_along hinner fun v => (hkeep v).follows (hsame v)
  have hh : Heading.SameBut (fun c c' => c' = c ∧ P c) h h := ⟨rfl, rfl, rfl, hc⟩
  have hstate := (hfollows h h hh).2
  refine ⟨Prod.ext ?_ hstate.eq, hstate.cache.2⟩
  rw [hfollows.end_eq hh, Except.map_id]
  rfl

end ConjugateGradient

/-! ## Reflections that are known -/

namespace Sphere

variable (s)

/-- The transport of a sphere, with another computation in place of the reflection. -/
def transportBy (compute : Vec K → Vec K → Checked (Vec K)) (x y ξ : Vec K) :
    Cached K (Vec K) := do
  s.requireLength x
  s.requireLength y
  s.requireLength ξ
  let d ← Cached.reflection x y (compute x y)
  let coefficient := (← s.inner ξ y) * 2.0
  Vec.sub ξ (Vec.scale d coefficient)

/-- The sphere that carries vectors by another computation in place of the reflection. -/
def computing (compute : Vec K → Vec K → Checked (Vec K)) : Manifold K :=
  { s.manifold with transport := fun x _ y ξ => s.transportBy compute x y ξ }

/-- With its own reflections it is the sphere. -/
theorem computing_reflection : s.computing s.reflection = s.manifold (K := K) := rfl

variable {s} {x y : Vec K} {c : Cache K}

theorem transportBy_of_keyedBy (hc : c.KeyedBy x y) (compute : Vec K → Vec K → Checked (Vec K))
    (ξ : Vec K) : s.transportBy compute x y ξ c = s.transport x y ξ c := by
  refine bind_congr_at rfl fun _ c₁ h₁ => bind_congr_at rfl fun _ c₂ h₂ => ?_
  refine bind_congr_at rfl fun _ c₃ h₃ => bind_congr_at ?_ fun _ _ _ => rfl
  obtain ⟨-, rfl⟩ := lift_eq_ok.1 h₁
  obtain ⟨-, rfl⟩ := lift_eq_ok.1 h₂
  obtain ⟨-, rfl⟩ := lift_eq_ok.1 h₃
  obtain ⟨d, hd⟩ := Cache.keyedBy_iff.1 hc
  rw [cachedReflection, Cached.reflection_of_some hd, Cached.reflection_of_some hd]

theorem keeps_reused (hc : c.KeyedBy x y) (ξ : Vec K) : Keeps c.Reused (s.transport x y ξ) := by
  intro c₁ hreused
  rcases h : s.transport x y ξ c₁ with ⟨r, c₂⟩
  cases outcome_transport h with
  | refused => exact hreused
  | reused => exact hreused.next
  | computed miss =>
    obtain ⟨d, hd⟩ := Cache.keyedBy_iff.1 (hc.reused hreused)
    cases miss.symm.trans hd

/-- The cache after lookups for two points, of which at most one had to compute the reflection. -/
def ReusedButOnce (c : Cache K) (x y : Vec K) (c' : Cache K) : Prop :=
  c.Reused c' ∨ c'.KeyedBy x y ∧ c'.computations = c.computations + 1

theorem keeps_reusedButOnce (hx : (x == x) = true) (hy : (y == y) = true) (ξ : Vec K) :
    Keeps (ReusedButOnce c x y) (s.transport x y ξ) := by
  intro c₁ hc₁
  rcases h : s.transport x y ξ c₁ with ⟨r, c₂⟩
  cases outcome_transport h with
  | refused => exact hc₁
  | reused =>
    obtain hreused | hkeyed := hc₁
    · exact .inl hreused.next
    · exact .inr hkeyed
  | computed miss =>
    obtain hreused | ⟨hkeyed, -⟩ := hc₁
    · exact .inr ⟨⟨_, rfl, hx, hy⟩, congrArg (· + 1) hreused.computations_eq⟩
    · obtain ⟨d, hd⟩ := Cache.keyedBy_iff.1 hkeyed
      cases miss.symm.trans hd

end Sphere

/-! ## Every run -/

namespace Setup

open ConjugateGradient Running

/-- **What a strong Wolfe search has carried, the rule need not carry again**: no method computes a
reflection then, and after the other search at most one is computed. -/
theorem learn_reuses (s : Sphere) :
    (∀ (objective : Objective K σ) usage params x value gradient ξ w w' a,
      (x == x) = true → (a.point == a.point) = true →
      StrongWolfe.search ⟨objective, s.manifold, usage⟩ params x value gradient ξ w = (.ok a, w') →
      w'.cache.KeyedBy x a.point) ∧
    ∀ (config : SolverOptions K) (objective : Objective K σ) clock r norm t a work,
      Accepts (s.manifold.conjugateGradients config objective clock) r t norm a work →
      (t.iterate.point == t.iterate.point) = true → (a.point == a.point) = true →
      (config.lineSearch = .strongWolfe →
        (∀ compute,
          learn (s.computing compute) (entered t a) ⟨t.direction, work.cache, t.rule⟩ =
            learn s.manifold (entered t a) ⟨t.direction, work.cache, t.rule⟩) ∧
        work.cache.Reused
          (learn s.manifold (entered t a) ⟨t.direction, work.cache, t.rule⟩).2.cache) ∧
      (learn s.manifold (entered t a) ⟨t.direction, work.cache, t.rule⟩).2.cache.computations ≤
        work.cache.computations + 1 := by
  refine ⟨fun _ _ _ _ _ _ _ _ _ _ hx ha h => StrongWolfe.keyedBy_of_search hx ha h, ?_⟩
  rintro config objective clock r norm t a work ⟨-, found⟩ hx ha
  refine ⟨fun hwolfe => ?_, ?_⟩
  · have hkeyed : work.cache.KeyedBy t.iterate.point a.point := by
      have hkind : (s.manifold.conjugateGradients config objective clock).config.lineSearch =
          .strongWolfe := hwolfe
      rw [searchFrom, hkind] at found
      exact StrongWolfe.keyedBy_of_search hx ha found
    have hlearn (compute : Vec K → Vec K → Checked (Vec K)) :=
      learn_congr (entered t a) ⟨t.direction, work.cache, t.rule⟩
        (show (s.computing compute).inner = s.manifold.inner from rfl) (Sphere.keeps_reused hkeyed)
        (fun v c hc => Sphere.transportBy_of_keyedBy (hkeyed.reused hc) compute v) (.refl _)
    exact ⟨fun compute => (hlearn compute).1, (hlearn s.reflection).2⟩
  · obtain ⟨-, hreused | ⟨-, hcount⟩⟩ :=
      learn_congr (entered t a) ⟨t.direction, work.cache, t.rule⟩
        (show s.manifold.inner = s.manifold.inner from rfl) (Sphere.keeps_reusedButOnce hx ha)
        (fun _ _ _ => rfl) (.inl (.refl _))
    · exact hreused.computations_eq.trans_le (Nat.le_succ _)
    · exact hcount.le

/-- The method of Hestenes and Stiefel on the smallest sphere. -/
def segmentTurn : Setup ℚ Unit (ConjugateGradient ℚ) :=
  (Sphere.manifold .segment).conjugateGradients
    { explicitParams := some { SearchParams.strongWolfe with c2 := 9 / 10 } }
    (.linear (Sphere.manifold .segment) [3 / 4, -3 / 4]) fun _ => 0

/-- The rule carries two vectors after the first step, and computes no reflection for either. -/
theorem learn_reuses_segment : ∃ r norm t a work, Accepts segmentTurn r t norm a work ∧
    work.cache.KeyedBy t.iterate.point a.point ∧ work.cache.Reused
      (learn segmentTurn.manifold (entered t a) ⟨t.direction, work.cache, t.rule⟩).2.cache ∧
    (learn segmentTurn.manifold (entered t a)
      ⟨t.direction, work.cache, t.rule⟩).2.cache.reuses = 2 := by
  obtain ⟨r, norm, t, -, steers, h⟩ := exists_of_after? (u := segmentTurn)
    (.new { method := .hestenesStiefel }) () [1, 1] 0
    (P := fun _ t => match searchFrom segmentTurn t t.work with
      | (.ok a, work) => (learn segmentTurn.manifold (entered t a)
          ⟨t.direction, work.cache, t.rule⟩).2.cache.reuses = 2
      | (.error _, _) => false) (by decide +kernel)
  rcases found : searchFrom segmentTurn t t.work with ⟨e | a, work⟩
  · rw [found] at h
    cases h
  · rw [found] at h
    have accepts : Accepts segmentTurn r t norm a work := ⟨steers, found⟩
    obtain ⟨hsearch, hlearn⟩ := learn_reuses (K := ℚ) (σ := Unit) .segment
    obtain ⟨hwolfe, -⟩ := hlearn _ _ _ r norm t a work accepts (beq_self_eq_true _)
      (beq_self_eq_true _)
    exact ⟨r, norm, t, a, work, accepts, hsearch _ _ _ _ _ _ _ _ _ _ (beq_self_eq_true _)
      (beq_self_eq_true _) found, (hwolfe rfl).2, of_decide_eq_true h⟩

end Setup

end GeodesicDescent
