import GeodesicDescent.Proofs.Sphere.Form
import GeodesicDescent.Manifold.Flat

/-!
# The spaces that are searched

Spheres and coordinate spaces have in common what a search along a curve relies on.

* `Manifold.InnerProducts`: inner products that are symmetric, bilinear and not negative;
* `Manifold.HasForm`: a form that gives the inner products at a point;
* `Space`, `Space.manifold`: a sphere or a coordinate space;
* **`Space.inner_eq_ok`**: the inner product is a weighted sum of products, with weights that are
  not negative;
* `Space.transparent_transport`, `Space.transparent_differential`: the cache does not show in what
  a space answers;
* **`Space.differential_eq_transport`**: along its own direction the derivative of the retraction
  is the transport, whatever the two caches hold.
-/

namespace GeodesicDescent

open Stateful Finset

theorem Manifold.inner_of_norm {K : Type} [Scalar K] {M : Manifold K} {x v : Vec K} {r : K}
    (h : M.norm x v = .ok r) : ∃ square, M.inner x v v = .ok square := by
  unfold norm at h
  cases hinner : M.inner x v v with
  | error e =>
    rw [hinner] at h
    cases h
  | ok square => exact ⟨square, rfl⟩

theorem Manifold.norm_eq_sqrt {K : Type} [Scalar K] {M : Manifold K} {x v : Vec K} {r square : K}
    (h : M.norm x v = .ok r) (hsquare : M.inner x v v = .ok square) : r = Scalar.sqrt square := by
  unfold norm at h
  rw [hsquare] at h
  exact (Except.ok.inj h).symm

/-- The inner products of a manifold are symmetric, bilinear and positive semidefinite, as far as
they are defined. -/
structure Manifold.InnerProducts {K : Type} [Field K] [LinearOrder K] [Elementary K] [Tolerances K]
    (M : Manifold K) : Prop where
  comm : ∀ {x u v : Vec K} {r : K}, M.inner x u v = .ok r → M.inner x v u = .ok r
  combines : ∀ {x u v w z : Vec K} {a b p q r : K}, Vec.Combines a u b v w →
    M.inner x u z = .ok p → M.inner x v z = .ok q → M.inner x w z = .ok r → r = a * p + b * q
  self_nonneg : ∀ {x u : Vec K} {r : K}, M.inner x u u = .ok r → 0 ≤ r

/-- At a point the vectors of one length have inner products, given by a form that is symmetric,
bilinear and positive semidefinite. -/
structure Manifold.HasForm {K : Type} [Field K] [LinearOrder K] [Elementary K] [Tolerances K]
    (M : Manifold K) (x : Vec K) (n : Nat) (form : Vec K → Vec K → K) : Prop where
  inner_eq : ∀ {u v : Vec K}, u.length = n → v.length = n → M.inner x u v = .ok (form u v)
  comm : ∀ u v : Vec K, form u v = form v u
  combines : ∀ {u v w : Vec K} {a b : K}, Vec.Combines a u b v w → ∀ z,
    form w z = a * form u z + b * form v z
  self_nonneg : ∀ u : Vec K, 0 ≤ form u u

theorem Flat.requireLength_eq_ok {K : Type} [Scalar K] {s : Flat} {v : Vec K} {r : Unit} :
    s.requireLength v = .ok r ↔ v.length = s.dimension := by
  unfold requireLength
  split_ifs with h
  · simp [h]
  · simp [h, refuse]

variable {K : Type} [Field K] [LinearOrder K] [Elementary K] [Tolerances K]

theorem Flat.inner_eq_ok {s : Flat} {u v : Vec K} {r : K} : s.inner u v = .ok r ↔
    u.length = s.dimension ∧ v.length = s.dimension ∧
      Vec.weightedSum s.dimension (fun _ => 1) u v = r := by
  have hsum (hu : u.length = s.dimension) (hv : v.length = s.dimension) :
      Vec.dot u v = .ok (Vec.weightedSum s.dimension (fun _ => 1) u v) := by
    rw [Vec.dot, if_pos (hu.trans hv.symm), Vec.rawDot_eq_sum (hu.trans hv.symm), hu]
    simp only [Vec.weightedSum, one_mul]
  simp only [inner, checked_bind_eq_ok, requireLength_eq_ok]
  constructor
  · rintro ⟨-, hu, -, hv, h⟩
    rw [hsum hu hv, Except.ok.injEq] at h
    exact ⟨hu, hv, h⟩
  · rintro ⟨hu, hv, h⟩
    rw [hsum hu hv, h]
    exact ⟨⟨⟩, hu, ⟨⟩, hv, rfl⟩

theorem Sphere.weight_pos [IsStrictOrderedRing K] (s : Sphere) (i : Nat) :
    (0 : K) < s.weight i := by
  have hsamples := s.two_le_samples
  refine mul_pos (div_pos zero_lt_one (Nat.cast_pos.2 (by omega))) ?_
  split_ifs with hfirst hlast
  · omega
  all_goals norm_num

/-- A sphere of sampled functions, or a coordinate space. -/
inductive Space
  | sphere (s : Sphere)
  | flat (s : Flat)

namespace Space

/-- The space as a manifold. -/
def manifold {K : Type} [Scalar K] : Space → Manifold K
  | sphere s => s.manifold
  | flat s => s.manifold

/-- The number of entries of its vectors. -/
def size : Space → Nat
  | sphere s => s.samples
  | flat s => s.dimension

/-- The weights of its inner product. -/
def weight : Space → Nat → K
  | sphere s => s.weight
  | flat _ => fun _ => 1

/-- Its inner product, of any two vectors. -/
def form (S : Space) (u v : Vec K) : K := Vec.weightedSum S.size S.weight u v

variable {S : Space} {x η y ξ u v w : Vec K} {a b r : K}

theorem form_comm (u v : Vec K) : S.form u v = S.form v u := Vec.weightedSum_comm _ _ u v

theorem form_combines (h : Vec.Combines a u b v w) (z : Vec K) :
    S.form w z = a * S.form u z + b * S.form v z := Vec.weightedSum_combines _ _ h z

theorem form_neg (v z : Vec K) : S.form (Vec.neg v) z = -S.form v z := by
  rw [form, Vec.weightedSum_of_getD _ _ (Vec.getD_neg v), neg_one_mul]
  rfl

theorem weight_pos [IsStrictOrderedRing K] (S : Space) (i : Nat) : (0 : K) < S.weight i := by
  cases S with
  | sphere s => exact s.weight_pos i
  | flat s => exact zero_lt_one

theorem form_self_nonneg [IsStrictOrderedRing K] (u : Vec K) : 0 ≤ S.form u u :=
  Vec.weightedSum_self_nonneg _ _ (fun i => (S.weight_pos i).le) u

theorem form_self_pos [IsStrictOrderedRing K] (hlength : u.length = S.size)
    (hu : ∃ t ∈ u, t ≠ 0) : 0 < S.form u u :=
  Vec.weightedSum_self_pos _ _ S.weight_pos hlength.le hu

/-- **The inner product is the weighted sum**, for vectors of the right length. -/
theorem inner_eq_ok [IsStrictOrderedRing K] : S.manifold.inner x u v = .ok r ↔
    u.length = S.size ∧ v.length = S.size ∧ S.form u v = r := by
  cases S with
  | sphere s => exact Sphere.inner_eq_ok
  | flat s => exact Flat.inner_eq_ok

theorem innerProducts [IsStrictOrderedRing K] (S : Space) :
    (S.manifold : Manifold K).InnerProducts where
  comm h := by
    obtain ⟨hu, hv, rfl⟩ := inner_eq_ok.1 h
    exact inner_eq_ok.2 ⟨hv, hu, form_comm _ _⟩
  combines h hp hq hr := by
    obtain ⟨-, -, rfl⟩ := inner_eq_ok.1 hp
    obtain ⟨-, -, rfl⟩ := inner_eq_ok.1 hq
    obtain ⟨-, -, rfl⟩ := inner_eq_ok.1 hr
    exact form_combines h _
  self_nonneg h := by
    obtain ⟨-, -, rfl⟩ := inner_eq_ok.1 h
    exact form_self_nonneg _

theorem hasForm [IsStrictOrderedRing K] (S : Space) (x : Vec K) :
    S.manifold.HasForm x S.size S.form where
  inner_eq hu hv := inner_eq_ok.2 ⟨hu, hv, rfl⟩
  comm := form_comm
  combines := form_combines
  self_nonneg := form_self_nonneg

/-! ## The cache -/

theorem transparent_transport (S : Space) (x η y ξ : Vec K) :
    Transparent (S.manifold.transport x η y ξ) := by
  cases S with
  | sphere s => exact Sphere.transparent_transport ξ
  | flat s => exact .pure ξ

theorem keeps_transport (x η y ξ : Vec K) :
    Keeps Cache.Faithful (S.manifold.transport x η y ξ) :=
  fun c hc => (S.transparent_transport x η y ξ c hc).2

theorem transparent_differential (S : Space) (x η y ξ : Vec K) :
    Transparent (S.manifold.differential x η y ξ true) := by
  cases S with
  | sphere s => exact Sphere.transparent_differential η ξ true
  | flat s => exact .pure ξ

theorem transparent_convertGradient (S : Space) (x g : Vec K) (usage : Usage) :
    Transparent (S.manifold.convertGradient x g usage) := by
  cases S with
  | sphere s => exact Sphere.transparent_convertGradient g usage
  | flat s => exact transparent_keepGradient x g usage

theorem transport_of_differential {c c₁ : Cache K}
    (h : S.manifold.differential x η y ξ true c = (.ok u, c₁)) :
    ∃ c₂, S.manifold.transport x η y ξ c = (.ok u, c₂) := by
  cases S with
  | sphere s =>
    obtain ⟨image, c₂, himage, h⟩ := bind_eq_ok.1 h
    split_ifs at h
    · obtain ⟨_, _, -, h⟩ := bind_eq_ok.1 h
      obtain ⟨_, _, -, h⟩ := bind_eq_ok.1 h
      cases h
      exact ⟨_, himage⟩
    · cases h
      exact ⟨_, himage⟩
  | flat s => exact ⟨c₁, h⟩

/-- **What a search sees of its direction at the next point is what the rule carries there.** -/
theorem differential_eq_transport {c c₁ c' c₁' : Cache K} (hc : c.Faithful) (hc' : c'.Faithful)
    (hd : S.manifold.differential x η y ξ true c = (.ok u, c₁))
    (ht : S.manifold.transport x η y ξ c' = (.ok v, c₁')) : u = v := by
  obtain ⟨c₂, hu⟩ := transport_of_differential hd
  have hempty := (S.transparent_transport x η y ξ c hc).1
  have hempty' := (S.transparent_transport x η y ξ c' hc').1
  rw [hu] at hempty
  rw [ht, ← hempty] at hempty'
  exact (Except.ok.inj hempty').symm

end Space

end GeodesicDescent
