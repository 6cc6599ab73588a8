import GeodesicDescent.Proofs.LineSearch.Keeping
import GeodesicDescent.Proofs.Run.Iterations

/-!
# What a run reports

A run reports an error where an accepted step leaves the manifold, and nowhere else.

* `Quiet`: events of which none is an error;
* `Setup.Calm`: a manifold and a rule that report no error themselves;
* **`Setup.quiet_run`**: where no accepted step leaves the manifold no error is reported, however
  the run ends.
-/

namespace GeodesicDescent

open Stateful

variable {K σ ρ α : Type}

/-- None of the events is an error. -/
def Quiet (trace : Array (Event K)) : Prop := ∀ e ∈ trace, e.level ≠ .error

theorem quiet_empty : Quiet (#[] : Array (Event K)) := fun _ he => absurd he (by simp)

theorem Quiet.push {trace : Array (Event K)} {e : Event K} (h : Quiet trace)
    (he : e.level ≠ .error) : Quiet (trace.push e) := by
  intro e' he'
  rcases Array.mem_push.1 he' with h' | rfl
  · exact h e' h'
  · exact he

theorem mem_pushAll {trace : Array (Event K)} {e : Event K} {es : List (Event K)} :
    e ∈ es.foldl Array.push trace ↔ e ∈ trace ∨ e ∈ es := by
  induction es generalizing trace with
  | nil => exact ⟨.inl, fun h => h.resolve_right List.not_mem_nil⟩
  | cons e' es ih => rw [List.foldl_cons, ih, Array.mem_push, List.mem_cons, or_assoc]

theorem Quiet.pushAll {trace : Array (Event K)} {es : List (Event K)} (h : Quiet trace)
    (he : ∀ e ∈ es, e.level ≠ .error) : Quiet (es.foldl Array.push trace) := fun e hmem =>
  (mem_pushAll.1 hmem).elim (h e) (he e)

namespace Running

theorem keeps_ofSteering (m : Steering K ρ α) :
    Keeps (fun r => Quiet r.work.trace) (ofSteering m : Running K σ ρ α) := fun _ hr => hr

theorem keeps_report {e : Event K} (he : e.level ≠ .error) :
    Keeps (fun r => Quiet r.work.trace) (ofSearching (.report e) : Running K σ ρ Unit) :=
  fun _ hr => hr.push he

theorem keeps_reportAll {es : List (Event K)} (he : ∀ e ∈ es, e.level ≠ .error) :
    Keeps (fun r => Quiet r.work.trace) (ofSearching (.reportAll es) : Running K σ ρ Unit) := by
  intro r hr
  rw [ofSearching, reportAll_apply]
  exact hr.pushAll he

end Running

variable [Scalar K] {u : Setup K σ ρ} {r t : RunState K σ ρ}

theorem Problem.partsKeep_quiet (p : Problem K σ) : p.PartsKeep fun w => Quiet w.trace where
  eval _ _ hw := hw
  evaluate _ := keeps_bind (fun _ hw => hw) fun _ =>
    keeps_bind (fun _ hw => hw) fun _ => keeps_pure _
  differential _ _ _ _ _ hw := hw
  trials _ _ hw := hw
  report _ _ hw := hw.push (by rintro ⟨⟩)

/-- Neither the manifold nor the rule reports an error. -/
structure Setup.Calm (u : Setup K σ ρ) : Prop where
  parameters : u.manifold.parameters.level ≠ .error
  announce : ∀ start es, u.rule.announce start = .ok es → ∀ e ∈ es, e.level ≠ .error
  report : ∀ start it, ∀ e ∈ u.rule.report start it, e.level ≠ .error

namespace Running

theorem assess_snd (u : Setup K σ ρ) (r : RunState K σ ρ) : (assess u r).2 = r := by
  have hkeep : Keeps (fun t => t = r) (assess u) := by
    refine keeps_bind keeps_get fun s => keeps_bind ?_ fun _ => keeps_pure _
    exact fun _ hr => hr
  exact hkeep r rfl

theorem keeps_searchFrom {P : Workspace K σ → Prop} (hp : u.problem.PartsKeep P)
    (t : RunState K σ ρ) : Keeps P (searchFrom u t) :=
  SearchKind.keeps_search hp _ _ _ _ _

theorem quiet_of_advance (hu : u.Calm) {norm : K} {a : Accepted K}
    (hin : u.manifold.containsPoint a.point Scalar.pointTolerance = true)
    (ht : Quiet t.work.trace) : Quiet (advance u norm a t).2.work.trace := by
  have hstays : ¬ u.manifold.containsPoint (enter t a).iterate.nextPoint
      Scalar.pointTolerance = false := by
    show ¬ u.manifold.containsPoint a.point Scalar.pointTolerance = false
    simp [hin]
  have hrest (it : Iterate K) (value : K) : Keeps (fun r => Quiet r.work.trace) (do
      modify fun s => { s with iterate := it }
      ofSteering (u.rule.learn u.manifold it)
      ofSearching (.report (completed it.iteration it.nextValue it.step norm))
      ofSearching (.reportAll (u.rule.report (← get).rule it))
      modify fun s => { s with
        history := s.history.push it.nextValue
        previousValue := some value
        iterate := it.shift } : Running K σ ρ Unit) := by
    refine keeps_bind (keeps_modify fun _ h => h) fun _ => ?_
    refine keeps_bind (keeps_ofSteering _) fun _ => ?_
    refine keeps_bind (keeps_report (e := completed _ _ _ _) (by rintro ⟨⟩)) fun _ => ?_
    refine keeps_bind keeps_get fun s => ?_
    refine keeps_bind (keeps_reportAll (hu.report _ _)) fun _ => ?_
    exact keeps_modify fun _ h => h
  rw [advance, bind_apply, modify_apply]
  dsimp only
  rw [bind_apply, get_apply]
  dsimp only
  rw [if_neg hstays]
  exact hrest _ _ (enter t a) ht

theorem quiet_of_iterate (hu : u.Calm)
    (hstays : ∀ norm t a work, Accepts u r t norm a work →
      u.manifold.containsPoint a.point Scalar.pointTolerance = true)
    (hr : Quiet r.work.trace) : Quiet (iterate u r).2.work.trace := by
  have hsame := assess_snd u r
  rw [iterate, bind_apply]
  rcases hassess : assess u r with ⟨e | ⟨norm, reason⟩, r₁⟩
  all_goals
    rw [hassess] at hsame
    obtain rfl : r₁ = r := hsame
  · exact hr
  obtain ⟨hnorm, hreason, -⟩ := assess_eq_ok.1 hassess
  cases reason with
  | some reason => exact hr
  | none =>
    dsimp only
    rw [bind_apply, get_apply]
    dsimp only
    rw [bind_apply]
    have ht := keeps_ofSteering (u.rule.steer u.manifold r₁.iterate) r₁ hr
    rcases hsteer : ofSteering (u.rule.steer u.manifold r₁.iterate) r₁ with ⟨e | _, t⟩
    all_goals rw [hsteer] at ht
    · exact ht
    have hwork := keeps_searchFrom u.problem.partsKeep_quiet t t.work ht
    dsimp only
    rw [bind_apply, search_apply, attempt]
    rcases hfound : searchFrom u t t.work with ⟨result, work⟩
    rw [hfound] at hwork
    have hfailed (iteration : Nat) (reason : String) : Keeps (fun r => Quiet r.work.trace)
        (ofSearching (.report (searchFailed iteration reason)) : Running K σ ρ Unit) :=
      keeps_report (by rintro ⟨⟩)
    dsimp only
    split
    · next a =>
      have hin := hstays norm t a work ⟨⟨hnorm, hreason, hsteer⟩, hfound⟩
      rw [bind_pure_snd]
      exact quiet_of_advance hu hin hwork
    · exact (keeps_bind keeps_get fun _ => keeps_bind (hfailed _ _) fun _ => keeps_pure _)
        { t with work } hwork
    · exact hwork

end Running

/-! ## A whole run -/

namespace Setup

variable {start : ρ} {state : σ} {point : Vec K}

/-- No accepted step of the run leaves the manifold. -/
def Stays (u : Setup K σ ρ) (start : ρ) (state : σ) (point : Vec K) : Prop :=
  ∀ r norm t a work, u.Visits start state point r → Running.Accepts u r t norm a work →
    u.manifold.containsPoint a.point Scalar.pointTolerance = true

theorem keeps_begin (hu : u.Calm) (start : ρ) (point : Vec K) :
    Keeps (fun w => Quiet w.trace) (u.begin start point) := by
  refine keeps_bind (fun _ hw => hw.push hu.parameters) fun _ => ?_
  cases hannounce : u.rule.announce start with
  | error e => exact fun _ hw => hw
  | ok es =>
    have hevents : Keeps (fun w => Quiet w.trace) (.reportAll es : Searching K σ Unit) := by
      intro w hw
      rw [Running.reportAll_apply]
      exact hw.pushAll (hu.announce start es hannounce)
    refine keeps_bind hevents fun _ => keeps_bind (Searching.keeps_ofChecked _) fun _ => ?_
    refine keeps_bind (fun _ hw => hw.push (by rintro ⟨⟩)) fun _ => ?_
    exact keeps_bind (u.problem.partsKeep_quiet.evaluate point) fun _ => keeps_pure _

theorem quiet_of_loop (hu : u.Calm) (hstays : u.Stays start state point) (budget : Nat)
    (visited : u.Visits start state point r) (hr : Quiet r.work.trace) :
    Quiet (Running.loop u budget r).2.work.trace := by
  induction budget generalizing r with
  | zero => exact hr
  | succ budget ih =>
    have hnext := Running.quiet_of_iterate hu
      (fun norm t a work => hstays r norm t a work visited) hr
    rw [Running.loop, bind_apply]
    rcases hiterate : Running.iterate u r with ⟨e | outcome, r'⟩
    all_goals rw [hiterate] at hnext
    · exact hnext
    cases outcome with
    | some outcome => exact hnext
    | none => exact ih (.next visited hiterate) hnext

theorem quiet_of_finish (hu : u.Calm) (hstays : u.Stays start state point)
    (visited : u.Visits start state point r) (hr : Quiet r.work.trace) :
    Quiet (Running.finish u r).2.work.trace := by
  have hloop := quiet_of_loop hu hstays UInt64.size visited hr
  rw [Running.finish, bind_apply]
  rcases hr' : Running.loop u UInt64.size r with ⟨e | ⟨reason, norm⟩, r'⟩
  all_goals rw [hr'] at hloop
  · exact hloop
  · exact hloop.push (by rintro ⟨⟩)

/-- **No error is reported where no accepted step leaves the manifold.** -/
theorem quiet_run (hu : u.Calm) (hstays : u.Stays start state point) :
    Quiet (u.run start state point).2.trace := by
  have hbegin := keeps_begin hu start point { objective := state } quiet_empty
  unfold run
  rcases hit : (u.begin start point) { objective := state } with ⟨e | it, work⟩
  all_goals rw [hit] at hbegin
  · exact hbegin
  exact quiet_of_finish hu hstays (.first hit) hbegin

end Setup

end GeodesicDescent
