import SessionWatch.Proofs.Deeds
import SessionWatch.Proofs.Keeping

/-!
An informer works through its callbacks one after the other, by single steps or by whole turns.
What it does goes by what the world holds alone, and a callback in which no time of a node is set or
looked up any more may change places with all that the other informer does.
-/

namespace SessionWatch

/-- A deed that the other informer could notice. -/
def Deed.isShared : Deed → Bool
  | ⟨.stamp, _⟩ | ⟨.note _, _⟩ => false
  | _ => true

/-- One informer: what is left of the callback under way with the callbacks to come, the conditions
of the steps to come, and what it has done. -/
structure Strand where
  plans : List (Plan Unit)
  weather : Weather
  deeds : List Deed := []

namespace Strand

/-- An informer after a step in the callback under way. Without an answer it has died, and no
callback of it comes any more. -/
def after (t : Strand) {s : Step} (next : s.Answer → Plan Unit) (ps : List (Plan Unit))
    (x : Option s.Answer) : Strand where
  plans :=
    match x with
    | some a => next a :: ps
    | none => []
  weather n := t.weather (n + 1)
  deeds :=
    match x with
    | some a => t.deeds ++ [Deed.mk s a].filter (·.isShared)
    | none => t.deeds

/-- One step in the callback under way, or the return from it. -/
def step (t : Strand) (w : World) : World × Strand :=
  match t.plans with
  | [] => (w, t)
  | .done () :: ps => (w, { t with plans := ps })
  | .step s next :: ps =>
    let x := w.under (t.weather 0) s
    (x.1, t.after next ps x.2)

def turn (t : Strand) (w : World) : World × Strand :=
  match t.plans with
  | [] => (w, t)
  | p :: ps =>
    let x := p.play ⟨w, t.weather⟩
    (x.1.world,
      { plans := if x.2.isSome then ps else []
        weather := x.1.weather
        deeds := t.deeds ++ (p.deeds ⟨w, t.weather⟩).filter (·.isShared) })

def Keeps (r : Resource) (t : Strand) : Prop := ∀ p ∈ t.plans, p.Keeps r 1

variable {t : Strand} {w : World} {r u : Resource}

theorem turn_of_nil (h : t.plans = []) (w : World) : t.turn w = (w, t) := by
  simp only [turn, h]

theorem step_of_done {ps : List (Plan Unit)} (h : t.plans = .done () :: ps) (w : World) :
    t.step w = (w, { t with plans := ps }) := by
  simp only [step, h]

theorem turn_of_done {ps : List (Plan Unit)} (h : t.plans = .done () :: ps) (w : World) :
    t.turn w = t.step w := by
  simp [turn, step, h, Plan.deeds]

theorem turn_of_step {s : Step} {next : s.Answer → Plan Unit} {ps : List (Plan Unit)}
    (h : t.plans = .step s next :: ps) (w : World) :
    t.turn w = (t.step w).2.turn (t.step w).1 := by
  simp only [turn, step, after, h, Plan.play_step, Plan.deeds_step, Scene.perform_eq]
  rcases w.under (t.weather 0) s with ⟨w', _ | a⟩
  · simp
  · simp only [List.append_assoc, ← List.filter_append, List.singleton_append]

/-- The same from worlds that are alike, to worlds that are alike. -/
structure Uniform (f : World → World × Strand) : Prop where
  strand : ∀ w v : World, w.Alike v → (f w).2 = (f v).2
  world : ∀ w v : World, w.Alike v → (f w).1.Alike (f v).1

theorem uniform_of_nil (h : t.plans = []) : Uniform t.turn where
  strand w v _ := by rw [turn_of_nil h, turn_of_nil h]
  world w v hwv := by rwa [turn_of_nil h, turn_of_nil h]

theorem after_same {s : Step} {next : s.Answer → Plan Unit} {x y : Option s.Answer}
    (hnext : ∀ a b, s.Same (some a) (some b) → next a = next b) (hxy : s.Same x y)
    (ps : List (Plan Unit)) : t.after next ps x = t.after next ps y := by
  cases s with
  | stamp =>
    cases x with
    | none =>
      cases y with
      | none => rfl
      | some b => cases hxy
    | some a =>
      cases y with
      | none => cases hxy
      | some b => simp [after, hnext a b rfl, Deed.isShared]
  | _ => rw [show x = y from hxy]

/-- A step of a callback goes by its answer, which is the same in worlds that are alike. -/
theorem uniform_step (ht : t.Keeps r) : Uniform t.step := by
  rcases hplans : t.plans with _ | ⟨_ | ⟨s, next⟩, ps⟩
  · exact ⟨fun w v _ => by simp [step, hplans], fun w v hwv => by simpa [step, hplans] using hwv⟩
  · exact ⟨fun w v _ => by simp [step, hplans], fun w v hwv => by simpa [step, hplans] using hwv⟩
  · have hhead : (Plan.step s next).Keeps r 1 := ht _ (by simp [hplans])
    obtain ⟨-, hsame, -⟩ := hhead.head
    refine ⟨fun w v hwv => ?_, fun w v hwv => ?_⟩
    · simp only [step, hplans]
      exact after_same hsame (hwv.under (t.weather 0) s).1 ps
    · simpa only [step, hplans] using (hwv.under (t.weather 0) s).2

theorem keeps_after {s : Step} {next : s.Answer → Plan Unit} {ps : List (Plan Unit)} {k : ℕ}
    (hk : k ≤ 1) (hnext : ∀ a, (next a).Keeps r k) (hps : ∀ p ∈ ps, p.Keeps r 1)
    (x : Option s.Answer) : (t.after next ps x).Keeps r := by
  cases x with
  | none => simp [Keeps, after]
  | some a => simpa [Keeps, after] using ⟨(hnext a).mono hk, hps⟩

theorem keeps_step (ht : t.Keeps r) (w : World) : (t.step w).2.Keeps r := by
  rcases hplans : t.plans with _ | ⟨_ | ⟨s, next⟩, ps⟩
  · simpa only [step, hplans] using ht
  · simp only [step, hplans]
    exact fun p hp => ht p (by simp [hplans, hp])
  · have hhead : (Plan.step s next).Keeps r 1 := ht _ (by simp [hplans])
    obtain ⟨-, -, hnext⟩ := hhead.head
    simp only [step, hplans]
    exact keeps_after le_rfl hnext (fun p hp => ht p (by simp [hplans, hp])) _

theorem keeps_turn (ht : t.Keeps r) (w : World) : (t.turn w).2.Keeps r := by
  rcases hplans : t.plans with _ | ⟨p, ps⟩
  · simpa only [turn, hplans] using ht
  · simp only [turn, hplans]
    intro q hq
    split at hq
    · exact ht q (by simp [hplans, hq])
    · cases hq

theorem uniform_turn (ht : t.Keeps r) : Uniform t.turn := by
  rcases hplans : t.plans with _ | ⟨p, ps⟩
  · exact uniform_of_nil hplans
  · induction p generalizing t with
    | done a =>
      have hstep : t.turn = t.step := funext fun w => turn_of_done hplans w
      rw [hstep]
      exact uniform_step ht
    | step s next ih =>
      have hstep := uniform_step ht
      have hrest : ∀ w, Uniform (t.step w).2.turn := by
        intro w
        rcases hx : (w.under (t.weather 0) s).2 with _ | a
        · refine uniform_of_nil ?_
          simp [step, hplans, after, hx]
        · refine ih a (keeps_step ht w) ?_
          simp [step, hplans, after, hx]
      refine ⟨fun w v hwv => ?_, fun w v hwv => ?_⟩
      · rw [turn_of_step hplans, turn_of_step hplans, ← hstep.strand w v hwv]
        exact (hrest w).strand _ _ (hstep.world w v hwv)
      · rw [turn_of_step hplans, turn_of_step hplans, ← hstep.strand w v hwv]
        exact (hrest w).world _ _ (hstep.world w v hwv)

/-! ### Two informers side by side -/

/-- Moves of the two informers that come to the same in either order. -/
structure Apart (f g : World → World × Strand) (w : World) : Prop where
  left : (f (g w).1).2 = (f w).2
  right : (g (f w).1).2 = (g w).2
  world : (g (f w).1).1.Alike (f (g w).1).1

theorem Apart.symm {f g : World → World × Strand} (h : Apart f g w) : Apart g f w :=
  ⟨h.right, h.left, h.world.symm⟩

theorem apart_of_still {f g : World → World × Strand} {t : Strand} (hf : ∀ v, f v = (v, t))
    (hw : (g w).1.Alike (g w).1) : Apart f g w := by
  refine ⟨by rw [hf, hf], by rw [hf], ?_⟩
  rw [hf, hf]
  exact hw

theorem Apart.turn {f : World → World × Strand} {s : Step} {next : s.Answer → Plan Unit}
    {ps : List (Plan Unit)} (hplans : t.plans = .step s next :: ps)
    (hstep : Apart f t.step w) (hturn : Apart f (t.step w).2.turn (t.step w).1)
    (huniform : Uniform (t.step w).2.turn) : Apart f t.turn w := by
  have hleft : (f (t.turn w).1).2 = (f w).2 := by
    rw [turn_of_step hplans, hturn.left, hstep.left]
  have hright : (t.turn (f w).1).2 = (t.turn w).2 := by
    rw [turn_of_step hplans, turn_of_step hplans, hstep.right, huniform.strand _ _ hstep.world,
      hturn.right]
  refine ⟨hleft, hright, ?_⟩
  rw [turn_of_step hplans, turn_of_step hplans, hstep.right]
  exact (huniform.world _ _ hstep.world).trans hturn.world

section Apart

variable {t' : Strand} {s : Step} {next : s.Answer → Plan Unit} {ps : List (Plan Unit)}

theorem apart_step_step (hne : r ≠ u) (ht : t.Keeps r) (ht' : t'.Keeps u)
    (hplans : t.plans = .step s next :: ps) (hs : s.Light r) (hw : w.Alike w) :
    Apart t.step t'.step w := by
  have halike : ∀ v, w.Alike v → (t.step v).1.Alike (t.step v).1 := fun v hv =>
    (uniform_step ht).world v v (hv.symm.trans hv)
  rcases hplans' : t'.plans with _ | ⟨_ | ⟨q, next'⟩, ps'⟩
  · have hstill : ∀ v, t'.step v = (v, t') := fun v => by simp only [step, hplans']
    exact (apart_of_still hstill (halike w hw)).symm
  · exact (apart_of_still (step_of_done hplans') (halike w hw)).symm
  · have hhead : (Plan.step s next).Keeps r 1 := ht _ (by simp [hplans])
    have hhead' : (Plan.step q next').Keeps u 1 := ht' _ (by simp [hplans'])
    obtain ⟨-, hsame, -⟩ := hhead.head
    obtain ⟨hq, hsame', -⟩ := hhead'.head
    have hcommute := hs.commute hne hq hw (t.weather 0) (t'.weather 0)
    refine ⟨?_, ?_, ?_⟩
    · simp only [step, hplans, hplans']
      exact after_same hsame hcommute.left ps
    · simp only [step, hplans, hplans']
      exact after_same hsame' hcommute.right ps'
    · simpa only [step, hplans, hplans'] using hcommute.world

/-- A light step of one informer is apart from a whole callback of the other. -/
theorem apart_step_turn (hne : r ≠ u) (ht : t.Keeps r) (ht' : t'.Keeps u)
    (hplans : t.plans = .step s next :: ps) (hs : s.Light r) (hw : w.Alike w) :
    Apart t.step t'.turn w := by
  have halike : (t.step w).1.Alike (t.step w).1 := (uniform_step ht).world w w hw
  rcases hplans' : t'.plans with _ | ⟨p, ps'⟩
  · exact (apart_of_still (turn_of_nil hplans') halike).symm
  · induction p generalizing t' w with
    | done a =>
      have hstill : ∀ v, t'.turn v = (v, { t' with plans := ps' }) := fun v => by
        rw [turn_of_done hplans', step_of_done hplans']
      exact (apart_of_still hstill halike).symm
    | step q next' ih =>
      have hstep := apart_step_step hne ht ht' hplans hs hw
      have hkeeps := keeps_step ht' w
      have hw₁ : (t'.step w).1.Alike (t'.step w).1 := (uniform_step ht').world w w hw
      have halike₁ := (uniform_step ht).world _ _ hw₁
      refine hstep.turn hplans' ?_ (uniform_turn hkeeps)
      rcases hx : (w.under (t'.weather 0) q).2 with _ | a
      · have hnil : (t'.step w).2.plans = [] := by simp [step, hplans', after, hx]
        exact (apart_of_still (turn_of_nil hnil) halike₁).symm
      · have hcons : (t'.step w).2.plans = next' a :: ps' := by simp [step, hplans', after, hx]
        exact ih a hkeeps hw₁ halike₁ hcons

theorem apart_turn_turn (hne : r ≠ u) (ht : t.Keeps r) (ht' : t'.Keeps u) {p : Plan Unit}
    (hplans : t.plans = p :: ps) (hp : p.Keeps r 0) (hw : w.Alike w) :
    Apart t.turn t'.turn w := by
  have halike' : ∀ v, v.Alike v → (t'.turn v).1.Alike (t'.turn v).1 := fun v hv =>
    (uniform_turn ht').world v v hv
  induction p generalizing t w with
  | done a =>
    have hstill : ∀ v, t.turn v = (v, { t with plans := ps }) := fun v => by
      rw [turn_of_done hplans, step_of_done hplans]
    exact apart_of_still hstill (halike' w hw)
  | step s next ih =>
    have hstep := (apart_step_turn hne ht ht' hplans hp.light_of_zero hw).symm
    have hkeeps := keeps_step ht w
    have hw₁ : (t.step w).1.Alike (t.step w).1 := (uniform_step ht).world w w hw
    refine (hstep.turn hplans ?_ (uniform_turn hkeeps)).symm
    rcases hx : (w.under (t.weather 0) s).2 with _ | a
    · have hnil : (t.step w).2.plans = [] := by simp [step, hplans, after, hx]
      exact (apart_of_still (turn_of_nil hnil) (halike' _ hw₁)).symm
    · have hcons : (t.step w).2.plans = next a :: ps := by simp [step, hplans, after, hx]
      exact (ih a hkeeps hcons (hp.head.2.2 a) hw₁).symm

end Apart

end Strand

end SessionWatch
