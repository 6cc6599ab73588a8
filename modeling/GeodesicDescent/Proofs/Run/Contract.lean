import GeodesicDescent.Proofs.LineSearch.Decrease
import GeodesicDescent.Proofs.LineSearch.Renaming
import GeodesicDescent.Proofs.Run.Directions

/-!
# What a run asks of a manifold

A transport, or the derivative of a retraction, is defined between a point and the point that its
displacement leads to. The caller has to keep to that, and a run of conjugate gradients does: it
ends the same whatever the manifold answers to any other call.

* `TransportCall`: the calls for which a caller has obligations;
* `TransportCall.Keeps`: the calls that keep them, in a search from a point along a direction;
* `Manifold.answering`: a manifold that answers the calls in another way;
* `search_answering`, `advance_answering`: a search and a step make calls that keep them only;
* **`Running.iterate_answering`**: so does an iteration;
* **`Setup.keeps_contract`**: so does a run.
-/

namespace GeodesicDescent

open Stateful

variable {K σ : Type} [Scalar K]

/-! ## Calls -/

/-- A call for which the caller has obligations. -/
inductive TransportCall (K : Type)
  | transport (x η y ξ : Vec K)
  | differential (x η y ξ : Vec K) (sameDirection : Bool)

/-- The call keeps to what a search from `x` along `ξ` may ask for: it is about the point that a
step along `ξ` leads to, and the derivative is asked for in the direction of that step. -/
inductive TransportCall.Keeps (M : Manifold K) (x ξ : Vec K) : TransportCall K → Prop
  | transport {step y} (joined : M.retract x (Vec.scale ξ step) = .ok y) (v : Vec K) :
    Keeps M x ξ (.transport x (Vec.scale ξ step) y v)
  | differential {step y} (joined : M.retract x (Vec.scale ξ step) = .ok y) :
    Keeps M x ξ (.differential x (Vec.scale ξ step) y ξ true)

/-- A derivative that is found by a transport, which it is by default, leads to a call that keeps to
the same. -/
theorem TransportCall.Keeps.transported {M : Manifold K} {x ξ x' η y v : Vec K} {b : Bool}
    (h : Keeps M x ξ (.differential x' η y v b)) : Keeps M x ξ (.transport x' η y v) := by
  cases h with
  | differential joined => exact .transport joined ξ

namespace Manifold

variable (M : Manifold K)

/-- What the manifold answers to a call. -/
def answer : TransportCall K → Cached K (Vec K)
  | .transport x η y ξ => M.transport x η y ξ
  | .differential x η y ξ sameDirection => M.differential x η y ξ sameDirection

/-- The same manifold with other answers. -/
def answering (answer : TransportCall K → Cached K (Vec K)) : Manifold K :=
  { M with
    transport x η y ξ := answer (.transport x η y ξ)
    differential x η y ξ sameDirection := answer (.differential x η y ξ sameDirection) }

/-- The answers of the manifold to calls about joined points and in the direction of the step. All
others are refused. -/
def guarded [DecidableEq K] (c : TransportCall K) : Cached K (Vec K) :=
  let joined := match c with
    | .transport x η y _ => yields (· = y) (M.retract x η)
    | .differential x η y _ sameDirection => yields (· = y) (M.retract x η) && sameDirection
  if joined then M.answer c else .refuse (.preconditionViolated "the points are not joined")

end Manifold

theorem TransportCall.Keeps.guarded_eq [DecidableEq K] {M : Manifold K} {x ξ : Vec K}
    {c : TransportCall K} (h : c.Keeps M x ξ) : M.guarded c = M.answer c := by
  cases h with
  | transport joined v => simp [Manifold.guarded, joined, yields]
  | differential joined => simp [Manifold.guarded, joined, yields]

variable {M : Manifold K} {config : SolverOptions K} {objective : Objective K σ}
variable {clock : Nat → Nat} {answer : TransportCall K → Cached K (Vec K)}

theorem ConjugateGradient.learn_answering {it : Iterate K}
    (h : ∀ v, answer (.transport it.point it.displacement it.nextPoint v) =
      M.transport it.point it.displacement it.nextPoint v) :
    learn (M.answering answer) it = learn M it := by
  have hweigh (d : Vec K) (method : CGMethod) :
      weigh (M.answering answer) it d method = weigh M it d method := by
    simp only [weigh, Manifold.answering, h]
  unfold learn
  simp only [hweigh]

theorem SearchKind.search_answering (kind : SearchKind) (objective : Objective K σ) (usage : Usage)
    (params : SearchParams K) {x ξ : Vec K} (value : K) (gradient : Vec K)
    (h : ∀ c : TransportCall K, c.Keeps M x ξ → answer c = M.answer c) :
    kind.search ⟨objective, M.answering answer, usage⟩ params x value gradient ξ =
      kind.search ⟨objective, M, usage⟩ params x value gradient ξ := by
  have hsame {β : Type} (m : Searching K σ β) : Follows Eq (Fault.rename (.refl K)) id m m := by
    rw [Fault.rename_refl]
    exact follows_refl m
  have hp : Problem.Parallel (.refl K) Eq x ξ ⟨objective, M, usage⟩
      ⟨objective, M.answering answer, usage⟩ := by
    refine ⟨rfl, rfl, fun y => hsame _, fun y => hsame _, fun step y joined => ?_, ?_, ?_, ?_⟩
    · have hanswer : (M.answering answer).differential x (Vec.scale ξ step) y ξ true =
          M.differential x (Vec.scale ξ step) y ξ true := h _ (.differential joined)
      rw [hanswer]
      exact hsame _
    all_goals
      intros
      subst_vars
      rfl
  apply Follows.eq
  rw [← Fault.rename_refl]
  exact kind.follows_search hp value gradient

/-! ## One iteration -/

namespace Running

variable {s t : RunState K σ (ConjugateGradient K)}

/-- The call keeps to what the iteration that starts in `s` may ask for. -/
def Calls (u : Setup K σ (ConjugateGradient K)) (s : RunState K σ (ConjugateGradient K))
    (c : TransportCall K) : Prop :=
  ∃ norm t, Steers u s norm t ∧ c.Keeps u.manifold s.iterate.point t.direction

theorem search_answering
    (h : ∀ c : TransportCall K, c.Keeps M t.iterate.point t.direction → answer c = M.answer c) :
    search ((M.answering answer).conjugateGradients config objective clock) t =
      search (M.conjugateGradients config objective clock) t := by
  have hsearch := config.lineSearch.search_answering objective
    (Usage.firstOrder.limitedTo objective) config.searchParams t.iterate.value t.iterate.gradient h
  exact congrFun (congrArg attempt hsearch) t

theorem advance_answering {norm : K} {a : Accepted K}
    (h : ∀ c : TransportCall K, c.Keeps M t.iterate.point t.direction → answer c = M.answer c)
    (joined : M.retract t.iterate.point (Vec.scale t.direction a.step) = .ok a.point) :
    advance ((M.answering answer).conjugateGradients config objective clock) norm a t =
      advance (M.conjugateGradients config objective clock) norm a t := by
  have hlearn : ConjugateGradient.learn (M.answering answer) (entered t a) =
      ConjugateGradient.learn M (entered t a) :=
    ConjugateGradient.learn_answering fun v => h _ (.transport joined v)
  refine bind_congr_at rfl fun _ t₁ ht₁ => bind_congr_at rfl fun t₂ _ ht₂ => ?_
  cases ht₁
  cases ht₂
  refine ite_congr_at (fun _ => ?_) fun _ => ?_
  -- Off the manifold the run ends before anything is learnt.
  · exact bind_congr_at rfl fun _ _ _ => bind_congr_at rfl fun _ _ h => nomatch h
  · refine bind_congr_at rfl fun _ t₃ ht₃ => bind_congr_at ?_ fun _ _ _ => rfl
    cases ht₃
    exact congrFun (congrArg ofSteering hlearn) _

/-- **An iteration makes no call but those that keep to its contract.** -/
theorem iterate_answering
    (h : ∀ c, Calls (M.conjugateGradients config objective clock) s c → answer c = M.answer c) :
    iterate ((M.answering answer).conjugateGradients config objective clock) s =
      iterate (M.conjugateGradients config objective clock) s := by
  refine bind_congr_at rfl fun ⟨norm, reason⟩ s' hassess => ?_
  cases reason with
  | some reason => rfl
  | none =>
    obtain ⟨hnorm, hreason, rfl⟩ := assess_eq_ok.1 hassess
    refine bind_congr_at rfl fun _ _ hs₁ => ?_
    cases hs₁
    refine bind_congr_at rfl fun _ t hsteer => ?_
    have steers : Steers (M.conjugateGradients config objective clock) s' norm t :=
      ⟨hnorm, hreason, hsteer⟩
    have hkeep : ∀ c : TransportCall K, c.Keeps M t.iterate.point t.direction →
        answer c = M.answer c := by
      intro c hc
      rw [steers.iterate_eq] at hc
      exact h c ⟨norm, t, steers, hc⟩
    -- Where the search accepts a step, its point is joined to the current one by that step.
    refine bind_congr_at (search_answering hkeep) fun result t' found => ?_
    obtain ⟨work, hfound, rfl⟩ := attempt_eq_ok.1 ((search_apply t).symm.trans found)
    cases result with
    | ok a =>
      exact bind_congr_at (advance_answering hkeep (SearchKind.search_reaches hfound).1)
        fun _ _ _ => rfl
    -- The faults apart, for both sides to be seen to take the branch of a failed search or none.
    | error fault =>
      cases fault with
      | refused e => cases e <;> rfl
      | _ => rfl

end Running

/-! ## A whole run -/

namespace Setup

variable {start : ConjugateGradient K} {state : σ} {x₀ : Vec K}

theorem loop_answering {s : RunState K σ (ConjugateGradient K)}
    (h : ∀ s c, (M.conjugateGradients config objective clock).Visits start state x₀ s →
      Running.Calls (M.conjugateGradients config objective clock) s c → answer c = M.answer c)
    (visited : (M.conjugateGradients config objective clock).Visits start state x₀ s)
    (budget : Nat) :
    Running.loop ((M.answering answer).conjugateGradients config objective clock) budget s =
      Running.loop (M.conjugateGradients config objective clock) budget s := by
  induction budget generalizing s with
  | zero => rfl
  | succ budget ih =>
    have hiterate := Running.iterate_answering fun c => h s c visited
    refine bind_congr_at hiterate fun outcome s' moved => ?_
    cases outcome with
    | some outcome => rfl
    | none => exact ih (.next visited moved)

variable (M config objective clock answer)

/-- **A run keeps to the contract of the manifold**: it does not show what other calls would do. -/
theorem keeps_contract :
    (∀ (start : ConjugateGradient K) (x₀ : Vec K),
      ((M.answering answer).conjugateGradients config objective clock).begin start x₀ =
        (M.conjugateGradients config objective clock).begin start x₀) ∧
    (∀ s, (∀ c, Running.Calls (M.conjugateGradients config objective clock) s c →
        answer c = M.answer c) →
      Running.iterate ((M.answering answer).conjugateGradients config objective clock) s =
        Running.iterate (M.conjugateGradients config objective clock) s) ∧
    ∀ start state x₀, (∀ s c,
        (M.conjugateGradients config objective clock).Visits start state x₀ s →
        Running.Calls (M.conjugateGradients config objective clock) s c → answer c = M.answer c) →
      ((M.answering answer).conjugateGradients config objective clock).run start state x₀ =
        (M.conjugateGradients config objective clock).run start state x₀ := by
  refine ⟨fun _ _ => rfl, fun s => Running.iterate_answering, fun start state x₀ h => ?_⟩
  have hbegin : ((M.answering answer).conjugateGradients config objective clock).begin start x₀ =
      (M.conjugateGradients config objective clock).begin start x₀ := rfl
  unfold run
  rw [hbegin]
  rcases begun : (M.conjugateGradients config objective clock).begin start x₀
    { objective := state } with ⟨e | it, work⟩
  · rfl
  · have hfinish : Running.finish ((M.answering answer).conjugateGradients config objective clock)
        (initial it start work) = Running.finish (M.conjugateGradients config objective clock)
        (initial it start work) :=
      bind_congr_at (loop_answering h (.first begun) _) fun _ _ _ => rfl
    simp only [hfinish]

/-- The descent into a bowl ends as it does where every other call is refused, after at least two
steps. -/
theorem keeps_contract_bowl :
    { bowlDescent with
        manifold := (Flat.manifold ⟨2⟩).answering (Flat.manifold ⟨2⟩).guarded }.run bowlStart ()
          [1, 1] = bowlDescent.run bowlStart () [1, 1] ∧
    ∃ s, bowlDescent.Visits bowlStart () [1, 1] s ∧ s.iterate.iteration = 2 := by
  constructor
  · have hkeeps := keeps_contract (Flat.manifold ⟨2⟩) bowlDescent.config bowlDescent.objective
      bowlDescent.clock (Flat.manifold ⟨2⟩).guarded
    exact hkeeps.2.2 bowlStart () [1, 1] fun s c _ ⟨_, _, _, keeps⟩ => keeps.guarded_eq
  · have htwo : (bowlDescent.after? bowlStart () [1, 1] 2).any
        (fun s => s.iterate.iteration = 2) = true := by decide +kernel
    obtain ⟨s, hs, htwo⟩ := (Option.any_eq_true _ _).1 htwo
    exact ⟨s, visits_of_after? hs, of_decide_eq_true htwo⟩

end Setup

end GeodesicDescent
