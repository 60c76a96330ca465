import Mathlib.Tactic

/-!
# Deterministic machines that answer events

A `Machine σ ε ω` in a state of type `σ` answers an event of type `ε` with an output of type `ω`. A step
without a defined outcome ends the run.
-/

structure Machine (σ ε ω : Type) where
  /-- The state after an event and the output to it. -/
  step : σ → ε → Option (σ × ω)

namespace Machine

open Option

variable {σ τ ε ω : Type}

def run (M : Machine σ ε ω) : σ → List ε → Option (σ × List ω)
  | s, [] => some (s, [])
  | s, e :: es =>
    match M.step s e with
    | none => none
    | some (s', o) => (M.run s' es).map fun r => (r.1, o :: r.2)

def outputs (M : Machine σ ε ω) : σ → List ε → List (Option ω)
  | _, [] => []
  | s, e :: es =>
    match M.step s e with
    | none => [none]
    | some (s', o) => some o :: M.outputs s' es

def Always (M : Machine σ ε ω) (P : σ → ε → Option (σ × ω) → Prop) : σ → List ε → Prop
  | _, [] => True
  | s, e :: es => P s e (M.step s e) ∧ ∀ s' o, M.step s e = some (s', o) → M.Always P s' es

instance instDecidableAlways (M : Machine σ ε ω) (P : σ → ε → Option (σ × ω) → Prop)
    [hP : ∀ s e out, Decidable (P s e out)] : ∀ s es, Decidable (M.Always P s es)
  | _, [] => .isTrue True.intro
  | s, e :: es =>
    match hP s e (M.step s e), hs : M.step s e with
    | .isFalse h, _ => .isFalse fun hall => h hall.1
    | .isTrue h, none => .isTrue ⟨h, fun _ _ hstep => by simp [hs] at hstep⟩
    | .isTrue h, some (s', o) =>
      match instDecidableAlways M P s' es with
      | .isFalse h' => .isFalse fun hall => h' (hall.2 s' o hs)
      | .isTrue h' => .isTrue ⟨h, fun t _ hstep => by
          obtain ⟨rfl, -⟩ := Prod.mk.inj (some.inj (hs.symm.trans hstep))
          exact h'⟩

def Total (M : Machine σ ε ω) : Prop := ∀ s e, ∃ r, M.step s e = some r

variable {s s' : σ} {e : ε} (M : Machine σ ε ω)

theorem run_cons {o : ω} (es : List ε) (h : M.step s e = some (s', o)) :
    M.run s (e :: es) = (M.run s' es).map fun r => (r.1, o :: r.2) := by
  simp [run, h]

variable {es : List ε} {os : List ω}

theorem run_cons_inv (h : M.run s (e :: es) = some (s', os)) :
    ∃ t o us, M.step s e = some (t, o) ∧ M.run t es = some (s', us) ∧ os = o :: us := by
  cases hse : M.step s e with
  | none => simp [run, hse] at h
  | some p =>
    obtain ⟨t, o⟩ := p
    rw [run_cons M es hse] at h
    obtain ⟨⟨u, us⟩, hu, hp⟩ := map_eq_some_iff.mp h
    obtain ⟨rfl, rfl⟩ := Prod.mk.inj hp
    exact ⟨t, o, us, rfl, hu, rfl⟩

theorem run_concat_inv (h : M.run s (es ++ [e]) = some (s', os)) :
    ∃ t us o, M.run s es = some (t, us) ∧ M.step t e = some (s', o) ∧ os = us ++ [o] := by
  induction es generalizing s os with
  | nil =>
    obtain ⟨t, o, us, hse, hu, rfl⟩ := run_cons_inv M h
    obtain ⟨rfl, rfl⟩ := Prod.mk.inj (some.inj hu)
    exact ⟨s, [], o, rfl, hse, rfl⟩
  | cons d es ih =>
    obtain ⟨t, o, us, hse, hu, rfl⟩ := run_cons_inv M h
    obtain ⟨v, vs, o', hv, he, rfl⟩ := ih hu
    exact ⟨v, o :: vs, o', by rw [run_cons M es hse, hv]; rfl, he, rfl⟩

/-- What holds of the empty run and is kept by every further step holds of every run, as a relation
between the events and outputs so far and the state they lead to. -/
theorem run_induction {P : List ε → List ω → σ → Prop} (hnil : P [] [] s)
    (hstep : ∀ es os t e u o, M.run s es = some (t, os) → P es os t → M.step t e = some (u, o) →
      P (es ++ [e]) (os ++ [o]) u) (h : M.run s es = some (s', os)) : P es os s' := by
  induction es using List.reverseRecOn generalizing os s' with
  | nil =>
    obtain ⟨rfl, rfl⟩ := Prod.mk.inj (some.inj h)
    exact hnil
  | append_singleton es e ih =>
    obtain ⟨t, us, o, ht, he, rfl⟩ := run_concat_inv M h
    exact hstep es us t e s' o ht (ih ht) he

theorem Always.trivial (s : σ) (es : List ε) : M.Always (fun _ _ _ => True) s es := by
  induction es generalizing s with
  | nil => exact True.intro
  | cons e es ih => exact ⟨True.intro, fun s' _ _ => ih s'⟩

theorem Always.of_forall {C : ε → Prop} (s : σ)
    (h : ∀ e ∈ es, C e) : M.Always (fun _ e _ => C e) s es := by
  induction es generalizing s with
  | nil => exact True.intro
  | cons e es ih =>
    refine ⟨h e List.mem_cons_self, ?_⟩
    intro s' _ _
    exact ih s' fun e' he' => h e' (List.mem_cons_of_mem e he')

variable {I : σ → Prop} {P Q : σ → ε → Option (σ × ω) → Prop}

/-- From a condition met by every step of a run to a property of every step, through an
invariant that the condition makes every step keep. -/
theorem Always.imp (hprop : ∀ s e, I s → Q s e (M.step s e) → P s e (M.step s e))
    (hinv : ∀ s e s' o, I s → Q s e (M.step s e) → M.step s e = some (s', o) → I s') (hs : I s)
    (h : M.Always Q s es) : M.Always P s es := by
  induction es generalizing s with
  | nil => trivial
  | cons e es ih =>
    obtain ⟨hq, hrest⟩ := h
    exact ⟨hprop s e hs hq, fun s' o ho => ih (hinv s e s' o hs hq ho) (hrest s' o ho)⟩

theorem Always.inv_of_run
    (hstep : ∀ s e s' o, I s → Q s e (M.step s e) → M.step s e = some (s', o) → I s')
    (hs : I s) (h : M.Always Q s es) (hr : M.run s es = some (s', os)) : I s' := by
  induction es generalizing s os with
  | nil =>
    simp only [run, some.injEq, Prod.mk.injEq] at hr
    exact hr.1 ▸ hs
  | cons e es ih =>
    obtain ⟨t, o, us, hse, hu, -⟩ := run_cons_inv M hr
    exact ih (hstep s e t o hs h.1 hse) (h.2 t o hse) hu

theorem exists_run (h : M.Total) (s : σ) (es : List ε) : ∃ s' os, M.run s es = some (s', os) := by
  induction es generalizing s with
  | nil => exact ⟨s, [], rfl⟩
  | cons e es ih =>
    obtain ⟨⟨t, o⟩, hs⟩ := h s e
    obtain ⟨s', os, hr⟩ := ih t
    exact ⟨s', o :: os, by rw [run_cons M es hs, hr]; rfl⟩

/-- What is seen of a state after a run follows from what is seen of the first state and the events
with their outputs, if every step has this property. -/
theorem view_of_run {α : Type} (view : σ → α) (after : α → ε × ω → α)
    (hstep : ∀ s e s' o, I s → M.step s e = some (s', o) →
      I s' ∧ view s' = after (view s) (e, o))
    (hs : I s) (hr : M.run s es = some (s', os)) :
    I s' ∧ view s' = (es.zip os).foldl after (view s) := by
  induction es generalizing s os with
  | nil =>
    obtain ⟨rfl, rfl⟩ := Prod.mk.inj (some.inj hr)
    exact ⟨hs, rfl⟩
  | cons e es ih =>
    obtain ⟨t, o, us, hse, hu, rfl⟩ := run_cons_inv M hr
    obtain ⟨ht, hview⟩ := hstep s e t o hs hse
    obtain ⟨hinv, hrest⟩ := ih ht hu
    exact ⟨hinv, by rw [hrest, hview]; rfl⟩

theorem always_iff (hiff : ∀ s e, I s → (P s e (M.step s e) ↔ Q s e (M.step s e)))
    (hinv : ∀ s e s' o, I s → Q s e (M.step s e) → M.step s e = some (s', o) → I s') (hs : I s) :
    M.Always P s es ↔ M.Always Q s es := by
  constructor
  · exact Always.imp M (fun s e hs hp => (hiff s e hs).mp hp)
      (fun s e s' o hs hp => hinv s e s' o hs ((hiff s e hs).mp hp)) hs
  · exact Always.imp M (fun s e hs hq => (hiff s e hs).mpr hq) hinv hs

variable {fails : σ → ε → Bool}

/-- Steps have a property and keep an invariant, except for those that fail, which lack the property:
the runs that have it throughout are those in which no step fails. -/
theorem always_iff_of_fails {R : σ → ε → σ × ω → Prop}
    (hkept : ∀ s e r, I s → M.step s e = some r → fails s e = false → I r.1 ∧ R s e r)
    (hfails : ∀ s e r, I s → M.step s e = some r → fails s e = true → ¬R s e r) (hs : I s) :
    M.Always (fun s e out => ∀ r ∈ out, R s e r) s es ↔
      M.Always (fun s e out => out.isSome = true → fails s e = false) s es := by
  refine always_iff M ?_ ?_ hs
  · intro s e hi
    constructor
    · intro hr hsome
      obtain ⟨r, hstep⟩ := isSome_iff_exists.mp hsome
      rw [Bool.eq_false_iff]
      intro hf
      exact hfails s e r hi hstep hf (hr r hstep)
    · intro hq r hstep
      exact (hkept s e r hi hstep (hq (isSome_of_mem hstep))).2
  · intro s e s' o hi hq hstep
    exact (hkept s e (s', o) hi hstep (hq (isSome_of_mem hstep))).1

theorem Total.always_iff_of_fails {M : Machine σ ε ω} (ht : M.Total) {R : σ → ε → σ × ω → Prop}
    (hkept : ∀ s e r, I s → M.step s e = some r → fails s e = false → I r.1 ∧ R s e r)
    (hfails : ∀ s e r, I s → M.step s e = some r → fails s e = true → ¬R s e r) (hs : I s) :
    M.Always (fun s e out => ∀ r ∈ out, R s e r) s es ↔
      M.Always (fun s e _ => fails s e = false) s es := by
  refine (Machine.always_iff_of_fails M hkept hfails hs).trans ?_
  refine always_iff M (I := fun _ => True) ?_ (fun _ _ _ _ _ _ _ => True.intro) True.intro
  intro s e _
  obtain ⟨r, hstep⟩ := ht s e
  simp [hstep]

theorem Always.of_run (fs : List ε) (h : M.Always P s (es ++ fs))
    (hr : M.run s es = some (s', os)) : M.Always P s' fs := by
  induction es generalizing s os with
  | nil =>
    simp only [run, some.injEq, Prod.mk.injEq] at hr
    exact hr.1 ▸ h
  | cons e es ih =>
    obtain ⟨t, o, us, hse, hu, -⟩ := run_cons_inv M hr
    exact ih (h.2 t o hse) hu

theorem always_concat_iff {t : σ} (e : ε) (hr : M.run s es = some (t, os)) :
    M.Always P s (es ++ [e]) ↔ M.Always P s es ∧ P t e (M.step t e) := by
  induction es generalizing s os with
  | nil =>
    obtain ⟨rfl, rfl⟩ := Prod.mk.inj (some.inj hr)
    exact ⟨fun h => ⟨True.intro, h.1⟩, fun h => ⟨h.2, fun _ _ _ => True.intro⟩⟩
  | cons d es ih =>
    obtain ⟨u, o, us, hse, hu, -⟩ := run_cons_inv M hr
    constructor
    · rintro ⟨hd, hrest⟩
      obtain ⟨hes, hlast⟩ := (ih hu).mp (hrest u o hse)
      refine ⟨⟨hd, ?_⟩, hlast⟩
      intro v o' hv
      cases hse.symm.trans hv
      exact hes
    · rintro ⟨⟨hd, hes⟩, hlast⟩
      refine ⟨hd, ?_⟩
      intro v o' hv
      cases hse.symm.trans hv
      exact (ih hu).mpr ⟨hes u o hse, hlast⟩

def Matches (R : σ → τ → Prop) (x : Option (σ × ω)) (y : Option (τ × ω)) : Prop :=
  Option.Rel (fun p q => p.2 = q.2 ∧ R p.1 q.1) x y

variable {R : σ → τ → Prop}

theorem Matches.none : Matches R (none : Option (σ × ω)) (none : Option (τ × ω)) := Option.Rel.none

variable {t : τ}

theorem Matches.some (o : ω) (h : R s t) :
    Matches R (some (s, o)) (some (t, o)) := Option.Rel.some ⟨rfl, h⟩

variable {x : Option (σ × ω)} {y : Option (τ × ω)}

theorem Matches.map {ω' : Type} (h : Matches R x y) (f : ω → ω') :
    Matches R (x.map fun r => (r.1, f r.2)) (y.map fun r => (r.1, f r.2)) := by
  cases h with
  | none => exact Option.Rel.none
  | some h => exact Option.Rel.some ⟨congrArg f h.1, h.2⟩

theorem Matches.of_snd_eq (ho : x.map Prod.snd = y.map Prod.snd)
    (hR : ∀ p q, x = .some p → y = .some q → R p.1 q.1) : Matches R x y := by
  cases x with
  | none =>
    cases y with
    | none => exact Option.Rel.none
    | some q => cases ho
  | some p =>
    cases y with
    | none => cases ho
    | some q => exact Option.Rel.some ⟨some.inj ho, hR p q rfl rfl⟩

theorem outputs_eq (N : Machine τ ε ω)
    (hstep : ∀ s t e, R s t → Q s e (M.step s e) → Matches R (M.step s e) (N.step t e))
    (hst : R s t) (h : M.Always Q s es) : M.outputs s es = N.outputs t es := by
  induction es generalizing s t with
  | nil => rfl
  | cons e es ih =>
    obtain ⟨hq, hrest⟩ := h
    have hm := hstep s t e hst hq
    cases hs : M.step s e with
    | none =>
      rw [hs] at hm
      cases ht : N.step t e with
      | none => simp [outputs, hs, ht]
      | some q => rw [ht] at hm; cases hm
    | some p =>
      obtain ⟨s', o⟩ := p
      rw [hs] at hm
      cases ht : N.step t e with
      | none => rw [ht] at hm; cases hm
      | some q =>
        rw [ht] at hm
        cases hm with
        | some hr =>
          obtain ⟨ho, hr⟩ := hr
          simp only at ho hr
          simp only [outputs, hs, ht, ho, ih hr (hrest s' o hs)]

theorem head_outputs (s : σ) (e : ε) (es : List ε) :
    (M.outputs s (e :: es)).head?.join = (M.step s e).map Prod.snd := by
  cases hs : M.step s e <;> simp [outputs, hs]

/-- Runs whose steps match under a condition, and give different outputs without it, give the same
outputs exactly if every step meets the condition. -/
theorem outputs_eq_iff (N : Machine τ ε ω)
    {Q H : σ → ε → Prop} {H' : τ → ε → Prop}
    (hstep : ∀ s t e, R s t → H s e → H' t e → Q s e → Matches R (M.step s e) (N.step t e))
    (hdiff : ∀ s t e, R s t → H s e → H' t e →
      (M.step s e).map Prod.snd = (N.step t e).map Prod.snd → Q s e)
    (hst : R s t) (hH : M.Always (fun s e _ => H s e) s es)
    (hH' : N.Always (fun t e _ => H' t e) t es) :
    M.outputs s es = N.outputs t es ↔ M.Always (fun s e _ => Q s e) s es := by
  induction es generalizing s t with
  | nil => exact iff_of_true rfl True.intro
  | cons e es ih =>
    have hhead : M.outputs s (e :: es) = N.outputs t (e :: es) → Q s e := by
      intro h
      apply hdiff s t e hst hH.1 hH'.1
      have hfirst := congrArg (fun os => os.head?.join) h
      rwa [head_outputs, head_outputs] at hfirst
    by_cases hq : Q s e
    · have hm := hstep s t e hst hH.1 hH'.1 hq
      cases hs : M.step s e with
      | none =>
        cases ht : N.step t e with
        | none => simp [outputs, Always, hs, ht, hq]
        | some q => rw [hs, ht] at hm; cases hm
      | some p =>
        cases ht : N.step t e with
        | none => rw [hs, ht] at hm; cases hm
        | some q =>
          rw [hs, ht] at hm
          cases hm with
          | some hr =>
            have hrest := ih hr.2 (hH.2 _ _ hs) (hH'.2 _ _ ht)
            simp only [outputs, hs, ht, hr.1]
            constructor
            · intro h
              refine ⟨hq, ?_⟩
              intro s' o hs'
              cases hs.symm.trans hs'
              exact hrest.mp (List.cons.inj h).2
            · intro h
              rw [hrest.mpr (h.2 _ _ hs)]
    · exact iff_of_false (fun h => hq (hhead h)) fun h => hq h.1

end Machine
