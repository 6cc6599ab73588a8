import GeodesicDescent.Proofs.Partials

/-!
# Central differences

Central differences move one coordinate at a time. The coordinates before it are back where they
were, so that each difference is taken at the point itself.

* `centralDifference`: the difference in one coordinate;
* **`centralDifferences_eq_mapM`**: the differences in all coordinates, whatever the objective
  answers and keeps of it;
* `centralDifferences_eq_map`: the same where values are known;
* `Quadratic.centralDifferences_eq_ok`: of the quadratic of a symmetric matrix they are the partial
  derivatives;
* **`differenceGradient_exact`**: the gradient by differences is the one that a quadratic answers.
-/

namespace GeodesicDescent

open Stateful

/-! ## One coordinate at a time -/

section

variable {K σ : Type} [Scalar K] {value : Vec K → Eval σ K} {h : K}

/-- The central difference of `value` with step `h` in the coordinate `i` of `x`. -/
def centralDifference (value : Vec K → Eval σ K) (h : K) (x : Vec K) (i : Nat) : Eval σ K := do
  let up ← value (x.set i (x.getD i 0 + h))
  let down ← value (x.set i (x.getD i 0 - h))
  return (up - down) / (h + h)

/-- The first difference is that in the coordinate at which the rest begins. -/
theorem centralDifference_length (before : Vec K) (t : K) (after : Vec K) :
    centralDifference value h (before ++ t :: after) before.length = (do
      let up ← value (before ++ (t + h) :: after)
      let down ← value (before ++ (t - h) :: after)
      return (up - down) / (h + h)) := by
  have ht : (before ++ t :: after).getD before.length 0 = t := by
    rw [List.getD_append_right _ _ _ _ (Nat.le_refl _), Nat.sub_self, List.getD_cons_zero]
  have hset (t' : K) : (before ++ t :: after).set before.length t' = before ++ t' :: after := by
    rw [List.set_append_right _ _ (Nat.le_refl _), Nat.sub_self, List.set_cons_zero]
  rw [centralDifference, ht, hset, hset]

/-- **The differences in all coordinates are those in each of them**, by induction on the
coordinates that are left. -/
theorem centralDifferences_eq_mapM (before after : Vec K) :
    centralDifferences value h before after =
      (List.range' before.length after.length).mapM
        (centralDifference value h (before ++ after)) := by
  induction after generalizing before with
  | nil => rfl
  | cons t after ih =>
    have hsplit : before ++ [t] ++ after = before ++ t :: after := List.append_assoc _ _ _
    have hrest := ih (before ++ [t])
    rw [hsplit, List.length_append, List.length_singleton] at hrest
    rw [centralDifferences, hrest, List.length_cons, List.range'_succ, List.mapM_cons,
      centralDifference_length]
    simp only [bind_assoc, pure_bind]

theorem differenceGradient_eq_mapM (f : Objective K σ) (x : Vec K) :
    f.differenceGradient x = (List.range x.length).mapM
      (centralDifference f.eval (Scalar.sqrt Scalar.epsilon) x) := by
  rw [List.range_eq_range']
  exact centralDifferences_eq_mapM [] x

theorem centralDifferences_eq_map {φ : Vec K → K} {x : Vec K} {s : σ}
    (hvalue : ∀ i t, value (x.set i t) s = (.ok (φ (x.set i t)), s)) :
    centralDifferences value h [] x s =
      (.ok ((List.range x.length).map fun i =>
        (φ (x.set i (x.getD i 0 + h)) - φ (x.set i (x.getD i 0 - h))) / (h + h)), s) := by
  rw [centralDifferences_eq_mapM, List.range_eq_range']
  refine mapM_eq_ok fun i _ => ?_
  exact bind_eq_ok.2 ⟨_, s, hvalue i _, bind_eq_ok.2 ⟨_, s, hvalue i _, rfl⟩⟩

end

/-! ## Quadratics -/

section

variable [Tolerances ℝ] {σ τ : Type} {q : Quadratic ℝ} {x g : Vec ℝ}

namespace Quadratic

/-- The central difference of a quadratic is the rate itself, for its square terms cancel. -/
theorem centralDifference_eq {i n : Nat} {step : ℝ} (h : q.Fits n) (hx : x.length = n)
    (hi : i < n) (hsymmetric : ∀ i j, q.a.entry i j = q.a.entry j i)
    (hg : Vec.Combines 1 (q.a.product x) 1 q.b g) (hstep : step ≠ 0) :
    (q.valueAt (x.set i (x.getD i 0 + step)) - q.valueAt (x.set i (x.getD i 0 - step))) /
      (step + step) = g.getD i 0 := by
  rw [valueAt_set h hx hi hsymmetric hg, valueAt_set h hx hi hsymmetric hg]
  field_simp
  ring

theorem centralDifferences_eq_ok {step : ℝ} (h : q.Fits x.length)
    (hsymmetric : ∀ i j, q.a.entry i j = q.a.entry j i)
    (hg : Vec.Combines 1 (q.a.product x) 1 q.b g) (hstep : step ≠ 0) (s : σ) :
    centralDifferences q.objective.eval step [] x s = (.ok g, s) := by
  have hlength : g.length = x.length := hg.length_right.trans h.length_eq
  have hvalue (i : Nat) (t : ℝ) :
      q.objective.eval (x.set i t) s = (.ok (q.valueAt (x.set i t)), s) :=
    eval_eq_ok (by rwa [List.length_set]) s
  rw [centralDifferences_eq_map hvalue]
  refine congrArg (fun v => (Except.ok v, s)) (List.ext_getElem ?_ fun i hi hi' => ?_)
  · rw [List.length_map, List.length_range, hlength]
  · rw [List.getElem_map, List.getElem_range,
      centralDifference_eq h rfl (hlength ▸ hi') hsymmetric hg hstep, List.getD_eq_getElem _ _ hi']

omit [Tolerances ℝ] in
theorem fits_of_ofMatrix? {a : Matrix ℝ} {b : Vec ℝ} {c : ℝ} (h : ofMatrix? a b c = .ok q) :
    q = ⟨a, b, c⟩ ∧ q.Fits b.length := by
  unfold ofMatrix? at h
  split_ifs at h with hshape
  cases h
  rw [not_or, not_not, not_not] at hshape
  exact ⟨rfl, hshape.2, hshape.1.symm.trans hshape.2, rfl⟩

end Quadratic

theorem sqrt_epsilon_pos : 0 < Scalar.sqrt (Scalar.epsilon : ℝ) :=
  Real.sqrt_pos.2 Tolerances.epsilon_pos

/-- **The gradient by central differences** is that of a symmetric quadratic, with any
positive step. -/
theorem differenceGradient_exact :
    (∀ {a : Matrix ℝ} {b : Vec ℝ} {c : ℝ} {q : Quadratic ℝ} {x : Vec ℝ} (s : σ),
      Quadratic.ofMatrix? a b c = .ok q → (∀ i j, a.entry i j = a.entry j i) → x.length = b.length →
      ∃ v g, q.objective.evalWithGradient x s = (.ok (v, g), s) ∧
        q.objective.differenceGradient x s = (.ok g, s) ∧
        ∀ h, 0 < h → centralDifferences q.objective.eval h [] x s = (.ok g, s)) ∧
    ∃ h : ℝ, 0 < h ∧ h = Scalar.sqrt Scalar.epsilon ∧ ∀ (f : Objective ℝ τ) (x : Vec ℝ),
      f.differenceGradient x = (List.range x.length).mapM fun i => do
        let up ← f.eval (x.set i (x.getD i 0 + h))
        let down ← f.eval (x.set i (x.getD i 0 - h))
        return (up - down) / (2 * h) := by
  refine ⟨fun {a b c q x} s hq hsymmetric hx => ?_, _, sqrt_epsilon_pos, rfl, fun f x => ?_⟩
  · obtain ⟨rfl, hfits⟩ := Quadratic.fits_of_ofMatrix? hq
    rw [← hx] at hfits
    have hshape : (a.product x).length = b.length :=
      (Matrix.length_product a x).trans (hfits.rows_eq.trans hx)
    have hadd : Vec.add (a.product x) b = .ok ((a.product x).zipWith (· + ·) b) :=
      Vec.combine_of_length hshape
    have exact_of_step {h : ℝ} (hstep : 0 < h) :=
      Quadratic.centralDifferences_eq_ok hfits hsymmetric (Vec.combines_add hadd) hstep.ne' s
    exact ⟨_, _, Quadratic.evalWithGradient_eq_ok.2 ⟨hfits, rfl, hadd, rfl⟩,
      exact_of_step sqrt_epsilon_pos, fun h => exact_of_step⟩
  · rw [differenceGradient_eq_mapM]
    simp only [two_mul]
    rfl

end

/-- A symmetric matrix. -/
noncomputable def coupling : Matrix ℝ := .ofFn 2 2 fun i j => if i = j then 0 else 1

theorem product_coupling : coupling.product [1, 2] = [2, 1] := by
  have hentry (i j : Nat) : coupling.entry i j =
      if i < 2 ∧ j < 2 then (if i = j then 0 else 1) else 0 := Matrix.entry_ofFn ..
  show [∑ j ∈ Finset.range 2, coupling.entry 0 j * [1, 2].getD j 0,
    ∑ j ∈ Finset.range 2, coupling.entry 1 j * [1, 2].getD j 0] = _
  norm_num [Finset.sum_range_succ, hentry]

theorem differenceGradient_exact_coupling : ∃ q, Quadratic.ofMatrix? coupling [1, -1] 3 = .ok q ∧
    q.objective.differenceGradient [1, 2] () = (.ok [3, 0], ()) ∧
    ∀ h, 0 < h → centralDifferences q.objective.eval h [] [1, 2] () = (.ok [3, 0], ()) := by
  have hsymmetric (i j : Nat) : coupling.entry i j = coupling.entry j i := by
    simp only [coupling, Matrix.entry_ofFn, and_comm, eq_comm]
  have hq : Quadratic.ofMatrix? coupling [1, -1] 3 = .ok ⟨coupling, [1, -1], 3⟩ :=
    if_neg (by decide)
  obtain ⟨v, g, asked, usual, any⟩ :=
    (differenceGradient_exact (σ := Unit) (τ := Unit)).1 (x := [1, 2]) () hq hsymmetric rfl
  have hg : g = [3, 0] := by
    obtain ⟨-, -, hadd, -⟩ := Quadratic.evalWithGradient_eq_ok.1 asked
    rw [product_coupling] at hadd
    cases hadd
    norm_num
  exact ⟨_, hq, hg ▸ usual, hg ▸ any⟩

end GeodesicDescent
