import GeodesicDescent.Proofs.Direction.Weights
import GeodesicDescent.Proofs.Sphere.Reflection

/-!
# Two vectors that are carried after a step

The rule carries its direction and the gradient to the next point, one after the other and through
one cache. On a sphere both go by one reflection: whatever a cache holds, what it has answered once
it answers again. Tangent vectors keep their inner product on the way.

* `Sphere.cachedReflection_again`: a cache answers for two points what it has answered before;
* `Space.exists_steady`: what is carried through a cache once is carried there again;
* `Space.finds`: what the rule finds on a space, where both vectors are carried;
* `Space.Supports`, **`Space.Supports.finds`**: a step after which both vectors can be carried, and
  keep their inner product.
-/

namespace GeodesicDescent

open Stateful

variable {K : Type} [Field K] [LinearOrder K] [Elementary K] [Tolerances K]

/-! ## Through one cache -/

namespace Sphere

variable {s : Sphere} {x y v image : Vec K} {c : Cache K}

/-- **A cache answers for two points what it has answered before.** -/
theorem cachedReflection_again (c : Cache K) :
    (s.cachedReflection x y (s.cachedReflection x y c).2).1 = (s.cachedReflection x y c).1 := by
  unfold cachedReflection
  cases hkept : c.reflectionFor? x y with
  | some d =>
    rw [Cached.reflection_of_some hkept, Cached.reflection_of_some (d := d)]
    exact hkept
  | none =>
    cases hd : s.reflection x y with
    | error e => rw [Cached.reflection_of_error hkept rfl, Cached.reflection_of_error hkept rfl]
    | ok d =>
      rw [Cached.reflection_of_ok hkept rfl, Cached.reflection_of_some (d := d)]
      simp [Cache.reflectionFor?]

variable [IsStrictOrderedRing K]

/-- What is carried through a cache is carried through every cache that answers alike. -/
theorem gives_transport (h : (s.transport x y v c).1 = .ok image) :
    image.length = v.length ∧
      Gives (fun c' => (s.cachedReflection x y c').1 = (s.cachedReflection x y c).1)
        (s.transport x y v) image := by
  obtain ⟨hx, hy, hv, d, a, hd, ha, himage⟩ := transport_apply_eq_ok.1 (Prod.ext h rfl)
  refine ⟨(Vec.combines_sub himage).length_left, fun c' hc' => ?_⟩
  have hanswer : (s.cachedReflection x y c').1 = .ok d := hc'.trans (congrArg Prod.fst hd)
  have hagain : s.transport x y v c' = (.ok image, (s.cachedReflection x y c').2) :=
    transport_apply_eq_ok.2 ⟨hx, hy, hv, d, a, Prod.ext hanswer rfl, ha, himage⟩
  rw [hagain]
  exact ⟨rfl, (cachedReflection_again c').trans hc'⟩

end Sphere

namespace Space

variable {S : Space} {it : Iterate K} {c : Cache K} {d x η y v image zeta : Vec K}
variable {P : Cache K → Prop} [IsStrictOrderedRing K]

theorem length_of_transport (h : (S.manifold.transport x η y v c).1 = .ok image) :
    image.length = v.length := by
  cases S with
  | sphere s => exact (Sphere.gives_transport h).1
  | flat s =>
    cases h
    rfl

/-- **What is carried through a cache once is carried there again.** -/
theorem exists_steady (S : Space) (x η y : Vec K) (c : Cache K) :
    ∃ P : Cache K → Prop, P c ∧ ∀ v image, (S.manifold.transport x η y v c).1 = .ok image →
      Gives P (S.manifold.transport x η y v) image := by
  cases S with
  | sphere s =>
    exact ⟨fun c' => (s.cachedReflection x y c').1 = (s.cachedReflection x y c).1, rfl,
      fun v image h => (Sphere.gives_transport h).2⟩
  | flat s =>
    refine ⟨fun _ => True, trivial, fun v image h => ?_⟩
    cases h
    exact gives_pure _

theorem finds
    (hdirection : Gives P (S.manifold.transport it.point it.displacement it.nextPoint d) zeta)
    (hgradient : Gives P
      (S.manifold.transport it.point it.displacement it.nextPoint it.gradient) image)
    (hd : d.length = S.size) (hg : it.gradient.length = S.size)
    (hnext : it.nextGradient.length = S.size) (hzeta : zeta.length = S.size)
    (himage : image.length = S.size) :
    ConjugateGradient.Finds S.manifold it d P S.size S.form (S.form it.gradient it.gradient) zeta
      image where
  hasForm := S.hasForm _
  before_eq := inner_eq_ok.2 ⟨hg, hg, rfl⟩
  direction_carried := hdirection
  gradient_carried := hgradient
  length_direction := hd
  length_gradient := hnext
  length_zeta := hzeta
  length_image := himage

/-! ## Between points that are apart -/

/-- A step after which the direction `d` and the gradient can be carried to the next point. On a
sphere the points are of unit norm and apart, and all vectors are tangent where they start. -/
inductive Supports : Space → Iterate K → Vec K → Prop
  | sphere {s : Sphere} {it : Iterate K} {d : Vec K} (point : s.OnSphere it.point)
    (nextPoint : s.OnSphere it.nextPoint) (apart : s.Apart it.point it.nextPoint)
    (gradient : s.Tangent it.point it.gradient) (direction : s.Tangent it.point d)
    (nextGradient : s.Tangent it.nextPoint it.nextGradient) : Supports (.sphere s) it d
  | flat {s : Flat} {it : Iterate K} {d : Vec K} (gradient : it.gradient.length = s.dimension)
    (direction : d.length = s.dimension)
    (nextGradient : it.nextGradient.length = s.dimension) : Supports (.flat s) it d

/-- **Between points that are apart both vectors are carried, and keep their inner product.** -/
theorem Supports.finds (h : S.Supports it d) : ∃ zeta image,
    ConjugateGradient.Finds S.manifold it d Cache.Faithful S.size S.form
      (S.form it.gradient it.gradient) zeta image ∧
    S.form zeta image = S.form d it.gradient := by
  cases h with
  | @sphere s _ _ hx hy hxy hgradient hdirection hnext =>
    obtain ⟨axis, haxis, hreflects⟩ := hxy.reflects
    obtain ⟨zeta, hzeta, hcombines⟩ :=
      Sphere.answers_transport haxis hreflects hdirection.length_eq
    obtain ⟨image, himage, hcombines'⟩ :=
      Sphere.answers_transport haxis hreflects hgradient.length_eq
    exact ⟨zeta, image, Space.finds hzeta himage hdirection.length_eq hgradient.length_eq
      hnext.length_eq (hcombines.length_left.trans hdirection.length_eq)
      (hcombines'.length_left.trans hgradient.length_eq),
      hreflects.form_eq_form hdirection hgradient hcombines hcombines'⟩
  | flat hgradient hdirection hnext =>
    exact ⟨d, it.gradient, Space.finds (gives_pure _) (gives_pure _) hdirection hgradient hnext
      hdirection hgradient, rfl⟩

end Space

end GeodesicDescent
