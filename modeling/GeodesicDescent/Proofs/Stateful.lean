import GeodesicDescent.Fault
import Mathlib.Tactic.SplitIfs

/-!
# Computations over a state

The cache, the objective, a search, a direction rule and a run all compute over a state of their
own and may fault; what they did to the state stays then too. This module says once how such
computations are taken apart.

* `bind_apply`, **`bind_eq_ok`**: a sequence succeeds exactly when its parts do;
* `bind_eq_error`: a sequence faults where one of its parts does;
* `part_eq_ok`: what a computation over a part of the state does to the whole;
* `eq_ok_of_yields`, `exists_of_yields`: what evaluating a computation shows;
* `Keeps`: a property of the state that a computation keeps, whether it succeeds or not;
* `Raises`: by how much a computation raises a number read off the state at most;
* **`Ensures`**: what holds of the outcome and of the state after it, for values and for errors;
* `Avoids`: an error that a computation never ends with;
* `Gives`: a value that a computation ends with from every state with a property it keeps;
* **`Follows`**: a computation that ends as another does, from states that are related.
-/

namespace GeodesicDescent.Stateful

variable {ε ε' σ τ α β α' β' : Type}

/-! ## One step at a time -/

section Step

variable {m : ExceptT ε (StateM σ) α} {f : α → ExceptT ε (StateM σ) β} {s s' : σ}

theorem pair_eq_ok {r : Except ε α} {a : α} :
    @Eq (Id (Except ε α × σ)) (r, s) (.ok a, s') ↔ r = .ok a ∧ s = s' :=
  Iff.of_eq (Prod.mk.injEq ..)

@[simp] theorem ok_eq_ok {a a' : α} :
    @Eq (Id (Except ε α × σ)) (.ok a, s) (.ok a', s') ↔ a = a' ∧ s = s' := by
  rw [pair_eq_ok, Except.ok.injEq]

theorem bind_apply : (m >>= f) s = match m s with
    | (.ok a, t) => f a t
    | (.error e, t) => (.error e, t) := by
  simp only [bind, ExceptT.bind, ExceptT.mk, StateT.bind]
  rcases m s with ⟨_ | a, t⟩ <;> rfl

@[simp] theorem pure_apply (a : α) : (pure a : ExceptT ε (StateM σ) α) s = (.ok a, s) := rfl

@[simp] theorem get_apply : (get : ExceptT ε (StateM σ) σ) s = (.ok s, s) := rfl

theorem get_bind_apply (f : σ → ExceptT ε (StateM σ) β) : (get >>= f) s = f s s := rfl

@[simp] theorem set_apply (t : σ) : (set t : ExceptT ε (StateM σ) PUnit) s = (.ok ⟨⟩, t) := rfl

@[simp] theorem modify_apply (g : σ → σ) :
    (modify g : ExceptT ε (StateM σ) PUnit) s = (.ok ⟨⟩, g s) := rfl

@[simp] theorem lift_apply (x : Except ε α) :
    (liftM x : ExceptT ε (StateM σ) α) s = (x, s) := rfl

theorem lift_eq_ok {x : Except ε α} {a : α} :
    (liftM x : ExceptT ε (StateM σ) α) s = (.ok a, s') ↔ x = .ok a ∧ s = s' := pair_eq_ok

theorem lift_eq_error {x : Except ε α} {e : ε} :
    (liftM x : ExceptT ε (StateM σ) α) s = (.error e, s') ↔ x = .error e ∧ s = s' :=
  Iff.of_eq (Prod.mk.injEq ..)

theorem lift_bind_apply {x : Except ε α} {g : α → Except ε β} (h : ∀ a, f a s = (g a, s)) :
    (liftM x >>= f) s = (x >>= g, s) := by
  cases x with
  | error e => rfl
  | ok a => exact h a

/-- **A sequence succeeds exactly when its parts succeed one after the other.** -/
theorem bind_eq_ok {b : β} :
    (m >>= f) s = (.ok b, s') ↔ ∃ a t, m s = (.ok a, t) ∧ f a t = (.ok b, s') := by
  rw [bind_apply]
  rcases m s with ⟨e | a, t⟩
  · exact ⟨nofun, fun ⟨_, _, h, _⟩ => nomatch h⟩
  · constructor
    · exact fun h => ⟨a, t, rfl, h⟩
    · rintro ⟨_, _, h, h'⟩
      cases h
      exact h'

/-- **A sequence faults where its first part does, or where the rest does after it.** -/
theorem bind_eq_error {e : ε} : (m >>= f) s = (.error e, s') ↔
    m s = (.error e, s') ∨ ∃ a t, m s = (.ok a, t) ∧ f a t = (.error e, s') := by
  rw [bind_apply]
  rcases m s with ⟨e' | a, t⟩
  · constructor
    · intro h
      cases h
      exact .inl rfl
    · rintro (h | ⟨_, _, h, _⟩)
      · cases h
        rfl
      · cases h
  · constructor
    · exact fun h => .inr ⟨a, t, rfl, h⟩
    · rintro (h | ⟨_, _, h, h'⟩)
      · cases h
      · cases h
        exact h'

theorem bind_pure_eq_error {e : ε} {g : α → β} :
    (m >>= fun a => pure (g a)) s = (.error e, s') ↔ m s = (.error e, s') := by
  rw [bind_eq_error]
  exact or_iff_left fun ⟨_, _, _, h⟩ => nomatch h

theorem map_apply (g : α → β) : (g <$> m) s = ((m s).1.map g, (m s).2) := by
  rw [map_eq_pure_bind, bind_apply]
  rcases m s with ⟨_ | a, t⟩ <;> rfl

/-- Sequences do the same from a state where their parts do, one after the other. -/
theorem bind_congr_at {m' : ExceptT ε (StateM σ) α} {f' : α → ExceptT ε (StateM σ) β}
    (hm : m s = m' s) (hf : ∀ a t, m' s = (.ok a, t) → f a t = f' a t) :
    (m >>= f) s = (m' >>= f') s := by
  rw [bind_apply, bind_apply, hm]
  rcases hms : m' s with ⟨e | a, t⟩
  · rfl
  · exact hf a t hms

theorem ite_congr_at {c : Prop} [Decidable c] {m' n n' : ExceptT ε (StateM σ) α}
    (hm : c → m s = m' s) (hn : ¬ c → n s = n' s) :
    (if c then m else n) s = (if c then m' else n') s := by
  by_cases hc : c
  · rw [if_pos hc, if_pos hc]
    exact hm hc
  · rw [if_neg hc, if_neg hc]
    exact hn hc

theorem bind_pure_snd (g : α → β) : ((m >>= fun a => pure (g a)) s).2 = (m s).2 := by
  rw [bind_apply]
  rcases m s with ⟨_ | a, t⟩ <;> rfl

theorem mapM_eq_ok {f : α → ExceptT ε (StateM σ) β} {g : α → β} {l : List α}
    (h : ∀ a ∈ l, f a s = (.ok (g a), s)) : l.mapM f s = (.ok (l.map g), s) := by
  induction l with
  | nil => rfl
  | cons a l ih =>
    have hrest := ih fun b hb => h b (List.mem_cons_of_mem a hb)
    rw [List.mapM_cons, List.map_cons]
    exact bind_eq_ok.2 ⟨g a, s, h a List.mem_cons_self, bind_eq_ok.2 ⟨l.map g, s, hrest, rfl⟩⟩

end Step

theorem checked_bind_eq_ok {x : Except ε α} {g : α → Except ε β} {b : β} :
    (x >>= g) = .ok b ↔ ∃ a, x = .ok a ∧ g a = .ok b := by
  cases x with
  | error e => exact ⟨nofun, fun ⟨_, h, _⟩ => nomatch h⟩
  | ok a =>
    constructor
    · exact fun h => ⟨a, rfl, h⟩
    · rintro ⟨_, h, h'⟩
      cases h
      exact h'

/-! ## Computations seen from outside -/

theorem seen_eq_ok {f : ε' → ε} {x : Except ε' α} {a : α} : x.mapError f = .ok a ↔ x = .ok a := by
  cases x with
  | error e => exact ⟨nofun, nofun⟩
  | ok b => rw [Except.mapError, Except.ok.injEq, Except.ok.injEq]

theorem ofExcept_eq_ok {x : Except GeometryError α} {a : α} :
    Checked.ofExcept x = .ok a ↔ x = .ok a := seen_eq_ok

/-- **A computation over a part of the state** succeeds as it does by itself, and writes that part
alone. -/
theorem part_eq_ok {r : Except ε' α} {r' : Except ε α} {t : τ} {a : α} {s' : σ} (put : τ → σ)
    (hr : r' = .ok a ↔ r = .ok a) : @Eq (Id (Except ε α × σ)) (r', put t) (.ok a, s') ↔
      ∃ t', @Eq (Id (Except ε' α × τ)) (r, t) (.ok a, t') ∧ s' = put t' := by
  rw [pair_eq_ok, hr]
  constructor
  · rintro ⟨rfl, rfl⟩
    exact ⟨t, rfl, rfl⟩
  · rintro ⟨_, h, rfl⟩
    obtain ⟨rfl, rfl⟩ := pair_eq_ok.1 h
    exact ⟨rfl, rfl⟩

/-! ## Evaluation -/

/-- The outcome is a value with a property. -/
def yields (P : α → Prop) [DecidablePred P] : Except ε α → Bool
  | .ok a => P a
  | .error _ => false

theorem eq_ok_of_yields [DecidableEq α] {r : Except ε α} {a : α} (h : yields (· = a) r = true) :
    r = .ok a := by
  rcases r with e | b
  · exact nomatch h
  · rw [of_decide_eq_true h]

/-- The outcome is an error with a property. -/
def faults (P : ε → Prop) [DecidablePred P] : Except ε α → Bool
  | .ok _ => false
  | .error e => P e

theorem exists_of_faults {x : Except ε α × σ} {P : ε → Prop} [DecidablePred P]
    (h : faults P x.1 = true) : ∃ e t, x = (.error e, t) ∧ P e := by
  rcases x with ⟨e | a, t⟩
  · exact ⟨e, t, rfl, of_decide_eq_true h⟩
  · exact nomatch h

theorem exists_ok_of_yields {r : Except ε α} {P : α → Prop} [DecidablePred P]
    (h : yields P r = true) : ∃ a, r = .ok a ∧ P a := by
  rcases r with e | a
  · exact nomatch h
  · exact ⟨a, rfl, of_decide_eq_true h⟩

theorem exists_of_yields {x : Except ε α × σ} {P : α → Prop} [DecidablePred P]
    (h : yields P x.1 = true) : ∃ a t, x = (.ok a, t) ∧ P a := by
  obtain ⟨a, heq, ha⟩ := exists_ok_of_yields h
  exact ⟨a, x.2, Prod.ext heq rfl, ha⟩

/-! ## What a computation keeps -/

section Keeps

/-- The computation leads from states with `P` to states with `P`, also where it faults. -/
def Keeps (P : σ → Prop) (m : ExceptT ε (StateM σ) α) : Prop := ∀ s, P s → P (m s).2

variable {P : σ → Prop} {m : ExceptT ε (StateM σ) α} {f : α → ExceptT ε (StateM σ) β} {s s' : σ}

theorem Keeps.of_eq {r : Except ε α} (h : Keeps P m) (hs : P s) (hm : m s = (r, s')) : P s' := by
  have := h s hs
  rwa [hm] at this

theorem keeps_pure (a : α) : Keeps P (pure a : ExceptT ε (StateM σ) α) := fun _ hs => hs

theorem keeps_throw (e : ε) : Keeps P (throw e : ExceptT ε (StateM σ) α) := fun _ hs => hs

theorem keeps_get : Keeps P (get : ExceptT ε (StateM σ) σ) := fun _ hs => hs

theorem keeps_lift (x : Except ε α) : Keeps P (liftM x : ExceptT ε (StateM σ) α) := fun _ hs => hs

theorem keeps_modify {g : σ → σ} (h : ∀ s, P s → P (g s)) :
    Keeps P (modify g : ExceptT ε (StateM σ) PUnit) := h

theorem keeps_bind (hm : Keeps P m) (hf : ∀ a, Keeps P (f a)) : Keeps P (m >>= f) := by
  intro s hs
  rw [bind_apply]
  have ht := hm s hs
  revert ht
  rcases m s with ⟨e | a, t⟩
  · exact id
  · exact hf a t

theorem keeps_ite {c : Prop} [Decidable c] {m' : ExceptT ε (StateM σ) α} (h : Keeps P m)
    (h' : Keeps P m') : Keeps P (if c then m else m') := by
  split_ifs
  · exact h
  · exact h'

end Keeps

/-! ## How far a computation raises a number -/

section Raises

/-- The computation raises the gauge by at most `n`, also where it faults. -/
def Raises (gauge : σ → Nat) (n : Nat) (m : ExceptT ε (StateM σ) α) : Prop :=
  ∀ s, gauge (m s).2 ≤ gauge s + n

variable {gauge : σ → Nat} {m m' : ExceptT ε (StateM σ) α} {f : α → ExceptT ε (StateM σ) β}
variable {n k : Nat}

theorem Raises.mono (h : Raises gauge n m) (hn : n ≤ k) : Raises gauge k m := fun s =>
  Nat.le_trans (h s) (Nat.add_le_add_left hn _)

theorem raises_pure (a : α) : Raises gauge 0 (pure a : ExceptT ε (StateM σ) α) :=
  fun _ => Nat.le_refl _

theorem raises_throw (e : ε) : Raises gauge 0 (throw e : ExceptT ε (StateM σ) α) :=
  fun _ => Nat.le_refl _

theorem raises_get : Raises gauge 0 (get : ExceptT ε (StateM σ) σ) := fun _ => Nat.le_refl _

theorem raises_modify {g : σ → σ} (h : ∀ s, gauge (g s) ≤ gauge s + n) :
    Raises gauge n (modify g : ExceptT ε (StateM σ) PUnit) := h

theorem raises_bind (hm : Raises gauge n m) (hf : ∀ a, Raises gauge k (f a)) :
    Raises gauge (n + k) (m >>= f) := by
  intro s
  rw [bind_apply]
  have ht := hm s
  revert ht
  rcases m s with ⟨e | a, t⟩ <;> intro ht
  · exact Nat.le_trans ht (Nat.add_le_add_left (Nat.le_add_right n k) _)
  · calc gauge (f a t).2 ≤ gauge t + k := hf a t
      _ ≤ gauge s + n + k := Nat.add_le_add_right ht k
      _ = gauge s + (n + k) := Nat.add_assoc ..

theorem raises_bind_zero (hm : Raises gauge 0 m) (hf : ∀ a, Raises gauge 0 (f a)) :
    Raises gauge 0 (m >>= f) := raises_bind hm hf

theorem raises_ite {c : Prop} [Decidable c] (h : Raises gauge n m) (h' : Raises gauge n m') :
    Raises gauge n (if c then m else m') := by
  split_ifs
  · exact h
  · exact h'

end Raises

/-! ## What a computation ensures -/

section Ensures

/-- From a state with `P` the computation ends with a value and a state for which `Q` holds, or
with an error and a state for which `E` holds. -/
def Ensures (P : σ → Prop) (m : ExceptT ε (StateM σ) α) (Q : α → σ → Prop) (E : ε → σ → Prop) :
    Prop :=
  ∀ s, P s → match m s with
    | (.ok a, t) => Q a t
    | (.error e, t) => E e t

variable {P P' : σ → Prop} {Q : α → σ → Prop} {E : ε → σ → Prop}
variable {m m' : ExceptT ε (StateM σ) α} {s t : σ}

theorem Ensures.of_ok {a : α} (h : Ensures P m Q E) (hs : P s) (hm : m s = (.ok a, t)) :
    Q a t := by
  have := h s hs
  rwa [hm] at this

theorem Ensures.of_error {e : ε} (h : Ensures P m Q E) (hs : P s) (hm : m s = (.error e, t)) :
    E e t := by
  have := h s hs
  rwa [hm] at this

theorem Ensures.of_imp (h : Ensures P m Q E) (hP : ∀ s, P' s → P s) : Ensures P' m Q E :=
  fun s hs => h s (hP s hs)

theorem Ensures.mono {Q' : α → σ → Prop} {E' : ε → σ → Prop} (h : Ensures P m Q E)
    (hQ : ∀ a s, Q a s → Q' a s) (hE : ∀ e s, E e s → E' e s) : Ensures P m Q' E' := by
  intro s hs
  rcases hm : m s with ⟨e | a, t⟩
  · exact hE e t (h.of_error hs hm)
  · exact hQ a t (h.of_ok hs hm)

theorem Ensures.snd {R : σ → Prop} (h : Ensures P m (fun _ => R) fun _ => R) (hs : P s) :
    R (m s).2 := by
  rcases hm : m s with ⟨e | a, t⟩
  · exact h.of_error hs hm
  · exact h.of_ok hs hm

theorem Keeps.ensures (h : Keeps P m) : Ensures P m (fun _ => P) fun _ => P := by
  intro s hs
  rcases hm : m s with ⟨e | a, t⟩ <;> exact h.of_eq hs hm

theorem ensures_pure {a : α} (h : ∀ s, P s → Q a s) : Ensures P (pure a) Q E := h

theorem ensures_throw {e : ε} (h : ∀ s, P s → E e s) :
    Ensures P (throw e : ExceptT ε (StateM σ) α) Q E := h

theorem ensures_get {Q : σ → σ → Prop} (h : ∀ s, P s → Q s s) :
    Ensures P (get : ExceptT ε (StateM σ) σ) Q E := h

theorem ensures_modify {g : σ → σ} {Q : PUnit → σ → Prop} (h : ∀ s, P s → Q ⟨⟩ (g s)) :
    Ensures P (modify g : ExceptT ε (StateM σ) PUnit) Q E := h

theorem ensures_bind {f : α → ExceptT ε (StateM σ) β} {R : β → σ → Prop} (hm : Ensures P m Q E)
    (hf : ∀ a, Ensures (Q a) (f a) R E) : Ensures P (m >>= f) R E := by
  intro s hs
  rw [bind_apply]
  rcases hms : m s with ⟨e | a, t⟩
  · exact hm.of_error hs hms
  · exact hf a t (hm.of_ok hs hms)

theorem ensures_ite {c : Prop} [Decidable c] (h : Ensures P m Q E) (h' : Ensures P m' Q E) :
    Ensures P (if c then m else m') Q E := by
  split_ifs
  · exact h
  · exact h'

/-- The computation never ends with this error. -/
abbrev Avoids (e : ε) (m : ExceptT ε (StateM σ) α) : Prop :=
  Ensures (fun _ => True) m (fun _ _ => True) fun e' _ => e' ≠ e

theorem Avoids.ne {e : ε} (h : Avoids e m) : m s ≠ (.error e, t) := fun hm =>
  h.of_error (s := s) trivial hm rfl

theorem avoids_of_ne {e : ε} (h : ∀ s t, m s ≠ (.error e, t)) : Avoids e m := by
  intro s _
  split
  · trivial
  · next e' t hm =>
    rintro rfl
    exact h s t hm

theorem avoids_pure {e : ε} (a : α) : Avoids e (pure a : ExceptT ε (StateM σ) α) :=
  ensures_pure fun _ _ => trivial

theorem avoids_throw {e e' : ε} (h : e' ≠ e) :
    Avoids e (throw e' : ExceptT ε (StateM σ) α) := ensures_throw fun _ _ => h

theorem avoids_throw_bind {e e' : ε} {f : α → ExceptT ε (StateM σ) β} (h : e' ≠ e) :
    Avoids e (throw e' >>= f) := ensures_throw (σ := σ) (α := β) fun _ _ => h

theorem avoids_get {e : ε} : Avoids e (get : ExceptT ε (StateM σ) σ) :=
  ensures_get fun _ _ => trivial

theorem avoids_modify {e : ε} (g : σ → σ) :
    Avoids e (modify g : ExceptT ε (StateM σ) PUnit) := ensures_modify fun _ _ => trivial

end Ensures

/-! ## Computations with one answer -/

section Gives

/-- From every state with `P` the computation ends with the value `a` and in a state with `P`. -/
def Gives (P : σ → Prop) (m : ExceptT ε (StateM σ) α) (a : α) : Prop :=
  ∀ s, P s → (m s).1 = .ok a ∧ P (m s).2

variable {P : σ → Prop} {m : ExceptT ε (StateM σ) α} {f : α → ExceptT ε (StateM σ) β}
variable {a : α} {b : β}

theorem gives_pure (a : α) : Gives P (pure a : ExceptT ε (StateM σ) α) a := fun _ hs => ⟨rfl, hs⟩

theorem gives_lift {x : Except ε α} (h : x = .ok a) :
    Gives P (liftM x : ExceptT ε (StateM σ) α) a := fun _ hs => ⟨h, hs⟩

theorem gives_bind (hm : Gives P m a) (hf : Gives P (f a) b) : Gives P (m >>= f) b := by
  intro s hs
  obtain ⟨heq, ht⟩ := hm s hs
  rw [bind_apply]
  generalize m s = ms at *
  rcases ms with ⟨r, t⟩
  obtain rfl : r = .ok a := heq
  exact hf t ht

theorem Gives.exists_eq (h : Gives P m a) {s : σ} (hs : P s) : ∃ t, m s = (.ok a, t) ∧ P t := by
  obtain ⟨heq, ht⟩ := h s hs
  exact ⟨(m s).2, Prod.ext heq rfl, ht⟩

end Gives

/-! ## Two computations that end alike -/

section Follows

/-- From states related by `R` the second computation ends as the first does, with the image of its
value under `g` or of its error under `k`, and in a state related to that of the first. -/
def Follows (R : σ → τ → Prop) (k : ε → ε') (g : α → α') (m : ExceptT ε (StateM σ) α)
    (m' : ExceptT ε' (StateM τ) α') : Prop :=
  ∀ s s', R s s' → (m' s').1 = ((m s).1.map g).mapError k ∧ R (m s).2 (m' s').2

variable {R : σ → τ → Prop} {k : ε → ε'} {g : α → α'} {h : β → β'}
variable {m m₁ : ExceptT ε (StateM σ) α} {m' m₁' : ExceptT ε' (StateM τ) α'}

theorem mapError_id (r : Except ε α) : r.mapError id = r := by
  cases r <;> rfl

/-- Where errors stay as they are, the end is that of the other with the image of its value. -/
theorem Follows.end_eq {m' : ExceptT ε (StateM τ) α'} (hm : Follows R id g m m') {s : σ} {s' : τ}
    (hs : R s s') : (m' s').1 = (m s).1.map g := by
  rw [(hm s s' hs).1, mapError_id]

theorem follows_refl (m : ExceptT ε (StateM σ) α) : Follows Eq id id m m := by
  rintro s _ rfl
  refine ⟨?_, rfl⟩
  rw [Except.map_id, mapError_id]
  rfl

theorem Keeps.follows {P : σ → Prop} {m' : ExceptT ε (StateM σ) α} (hm : Keeps P m)
    (h : ∀ s, P s → m' s = m s) : Follows (fun s s' => s' = s ∧ P s) id id m m' := by
  rintro s _ ⟨rfl, hs⟩
  rw [h _ hs]
  exact ⟨by cases (m _).1 <;> rfl, rfl, hm _ hs⟩

theorem Follows.eq {m' : ExceptT ε (StateM σ) α} (hm : Follows Eq id id m m') : m' = m := by
  funext s
  refine Prod.ext ?_ (hm s s rfl).2.symm
  rw [hm.end_eq rfl, Except.map_id]
  rfl

theorem follows_pure {a : α} {a' : α'} (ha : a' = g a) : Follows R k g (pure a) (pure a') :=
  fun _ _ hs => ⟨congrArg Except.ok ha, hs⟩

theorem follows_throw (e : ε) :
    Follows R k g (throw e : ExceptT ε (StateM σ) α) (throw (k e)) := fun _ _ hs => ⟨rfl, hs⟩

theorem follows_lift (x : Except ε α) :
    Follows R id id (liftM x : ExceptT ε (StateM σ) α) (liftM x : ExceptT ε (StateM τ) α) :=
  fun _ _ hs => ⟨by cases x <;> rfl, hs⟩

theorem follows_modify {f : σ → σ} {f' : τ → τ} (hf : ∀ s s', R s s' → R (f s) (f' s')) :
    Follows R k id (modify f : ExceptT ε (StateM σ) PUnit) (modify f') :=
  fun s s' hs => ⟨rfl, hf s s' hs⟩

theorem follows_bind {f : α → ExceptT ε (StateM σ) β} {f' : α' → ExceptT ε' (StateM τ) β'}
    (hm : Follows R k g m m')
    (hf : ∀ a, (∃ s t, m s = (.ok a, t)) → Follows R k h (f a) (f' (g a))) :
    Follows R k h (m >>= f) (m' >>= f') := by
  intro s s' hs
  obtain ⟨hend, hstate⟩ := hm s s' hs
  rw [bind_apply, bind_apply]
  rcases hms : m s with ⟨e | a, t⟩ <;> rcases hms' : m' s' with ⟨e' | a', t'⟩
  all_goals rw [hms, hms'] at hend hstate
  · cases hend
    exact ⟨rfl, hstate⟩
  · cases hend
  · cases hend
  · cases hend
    exact hf a ⟨s, t, hms⟩ t t' hstate

theorem follows_get_bind {f : σ → ExceptT ε (StateM σ) α} {f' : τ → ExceptT ε' (StateM τ) α'}
    (hf : ∀ s s', R s s' → Follows R k g (f s) (f' s')) :
    Follows R k g (get >>= f) (get >>= f') := fun s s' hs => hf s s' hs s s' hs

theorem follows_ite {c c' : Prop} [Decidable c] [Decidable c'] (hc : c' ↔ c)
    (h : Follows R k g m m') (h' : Follows R k g m₁ m₁') :
    Follows R k g (if c then m else m₁) (if c' then m' else m₁') := by
  by_cases hyes : c
  · rw [if_pos hyes, if_pos (hc.2 hyes)]
    exact h
  · rw [if_neg hyes, if_neg (mt hc.1 hyes)]
    exact h'

end Follows

end GeodesicDescent.Stateful
