import SessionWatch.Application
import SessionWatch.Proofs.Strands

/-!
Two informers at once. The steps of one may fall anywhere between the steps of the other; whatever
the interleaving, there is an order of whole callbacks that comes to the same. A callback takes its
place in that order where it sets or looks up the time of a node.
-/

namespace SessionWatch

open Cluster

/-- The two informers and the world that they share. -/
structure Weave where
  world : World
  strand : Resource → Strand

namespace Weave

def move (f : Strand → World → World × Strand) (v : Weave) (r : Resource) : Weave :=
  let x := f (v.strand r) v.world
  ⟨x.1, Function.update v.strand r x.2⟩

def step : Weave → Resource → Weave := move Strand.step

/-- One callback of an informer, with no step of the other one in between. -/
def turn : Weave → Resource → Weave := move Strand.turn

def steps (v : Weave) (σ : List Resource) : Weave := σ.foldl step v

def turns (v : Weave) (order : List Resource) : Weave := order.foldl turn v

@[simp] theorem steps_nil (v : Weave) : v.steps [] = v := rfl

@[simp] theorem steps_cons (v : Weave) (r : Resource) (σ : List Resource) :
    v.steps (r :: σ) = (v.step r).steps σ := rfl

@[simp] theorem turns_nil (v : Weave) : v.turns [] = v := rfl

@[simp] theorem turns_cons (v : Weave) (r : Resource) (order : List Resource) :
    v.turns (r :: order) = (v.turn r).turns order := rfl

@[simp] theorem turns_append (v : Weave) (order order' : List Resource) :
    v.turns (order ++ order') = (v.turns order).turns order' := List.foldl_append

structure Alike (v v' : Weave) : Prop where
  strand : v.strand = v'.strand
  world : v.world.Alike v'.world

/-- Each informer keeps to its own steps, and the backends are stores in memory. -/
structure Kept (v : Weave) : Prop where
  strand : ∀ r, (v.strand r).Keeps r
  world : v.world.Alike v.world

variable {v v' : Weave} {r u : Resource}

theorem Alike.trans {v'' : Weave} (h : v.Alike v') (h' : v'.Alike v'') : v.Alike v'' :=
  ⟨h.strand.trans h'.strand, h.world.trans h'.world⟩

theorem Kept.alike (h : v.Kept) : v.Alike v := ⟨rfl, h.world⟩

theorem Alike.kept (h : v.Alike v') (hv : v.Kept) : v'.Kept :=
  ⟨fun r => h.strand ▸ hv.strand r, h.world.symm.trans h.world⟩

@[simp] theorem strand_move_self (f : Strand → World → World × Strand) (v : Weave) (r : Resource) :
    (v.move f r).strand r = (f (v.strand r) v.world).2 := by
  simp [move]

@[simp] theorem strand_move_of_ne (f : Strand → World → World × Strand) (v : Weave)
    (hne : u ≠ r) : (v.move f r).strand u = v.strand u := by
  simp [move, hne]

theorem alike_move {f : Strand → World → World × Strand} (h : v.Alike v')
    (hf : Strand.Uniform (f (v.strand r))) : (v.move f r).Alike (v'.move f r) := by
  obtain ⟨hstrand, hworld⟩ := hf
  refine ⟨?_, ?_⟩
  · simp only [move, ← h.strand, hstrand _ _ h.world]
  · simpa only [move, ← h.strand] using hworld _ _ h.world

theorem move_comm {f g : Strand → World → World × Strand} (hne : r ≠ u)
    (h : Strand.Apart (f (v.strand r)) (g (v.strand u)) v.world) :
    ((v.move f r).move g u).Alike ((v.move g u).move f r) := by
  obtain ⟨hleft, hright, hworld⟩ := h
  refine ⟨?_, ?_⟩
  · simp only [move, Function.update_of_ne hne, Function.update_of_ne hne.symm, hleft, hright]
    exact Function.update_comm hne _ _ _
  · simpa only [move, Function.update_of_ne hne, Function.update_of_ne hne.symm] using hworld

theorem kept_move {f : Strand → World → World × Strand} (hv : v.Kept)
    (hkeeps : (f (v.strand r) v.world).2.Keeps r) (hf : Strand.Uniform (f (v.strand r))) :
    (v.move f r).Kept := by
  refine ⟨fun u => ?_, hf.world _ _ hv.world⟩
  by_cases hu : u = r
  · subst hu
    simpa using hkeeps
  · simpa [hu] using hv.strand u

theorem Kept.step (hv : v.Kept) (r : Resource) : (v.step r).Kept :=
  kept_move hv (Strand.keeps_step (hv.strand r) _) (Strand.uniform_step (hv.strand r))

theorem Kept.turn (hv : v.Kept) (r : Resource) : (v.turn r).Kept :=
  kept_move hv (Strand.keeps_turn (hv.strand r) _) (Strand.uniform_turn (hv.strand r))

theorem Alike.turns (h : v.Alike v') (hv : v.Kept) (order : List Resource) :
    (v.turns order).Alike (v'.turns order) := by
  induction order generalizing v v' with
  | nil => exact h
  | cons r order ih => exact ih (alike_move h (Strand.uniform_turn (hv.strand r))) (hv.turn r)

theorem turn_of_nil (h : (v.strand r).plans = []) : v.turn r = v := by
  have hturn := Strand.turn_of_nil h v.world
  simp [turn, move, hturn]

theorem plans_turns_of_nil (h : (v.strand r).plans = []) (order : List Resource) :
    ((v.turns order).strand r).plans = [] := by
  induction order generalizing v with
  | nil => exact h
  | cons u order ih =>
    refine ih ?_
    by_cases hu : u = r
    · subst hu
      rwa [turn_of_nil h]
    · rwa [turn, strand_move_of_ne _ _ (Ne.symm hu)]

theorem turns_replicate_of_nil (h : (v.strand r).plans = []) (k : ℕ) :
    v.turns (List.replicate k r) = v := by
  induction k with
  | zero => rfl
  | succ k ih => rw [List.replicate_succ, turns_cons, turn_of_nil h, ih]

section Head

variable {s : Step} {next : s.Answer → Plan Unit} {ps : List (Plan Unit)}

theorem turn_step (h : (v.strand r).plans = .step s next :: ps) : (v.step r).turn r = v.turn r := by
  have hturn := Strand.turn_of_step h v.world
  simp [turn, step, move, hturn]

theorem step_of_done (h : (v.strand r).plans = .done () :: ps) : v.step r = v.turn r := by
  have hturn := Strand.turn_of_done h v.world
  simp [turn, step, move, hturn]

/-- A light step need not be made before the turn of its callback. -/
theorem turns_of_light (hv : v.Kept) (h : (v.strand r).plans = .step s next :: ps)
    (hs : s.Light r) {order : List Resource} (hr : r ∈ order) :
    ((v.step r).turns order).Alike (v.turns order) := by
  induction order generalizing v with
  | nil => cases hr
  | cons u order ih =>
    rw [turns_cons, turns_cons]
    by_cases hu : u = r
    · subst hu
      rw [turn_step h]
      exact ((hv.turn u).alike.turns (hv.turn u) order)
    · have hapart := Strand.apart_step_turn (Ne.symm hu) (hv.strand r) (hv.strand u) h hs hv.world
      have hswap : ((v.step r).turn u).Alike ((v.turn u).step r) := move_comm (Ne.symm hu) hapart
      have hplans : ((v.turn u).strand r).plans = .step s next :: ps := by
        rwa [turn, strand_move_of_ne _ _ (Ne.symm hu)]
      have hrest := ih (hv.turn u) hplans ((List.mem_cons.1 hr).resolve_left (Ne.symm hu))
      exact (hswap.turns ((hv.step r).turn u) order).trans hrest

/-- A callback without a crucial step ahead may come before the callbacks of the other informer. -/
theorem turns_of_last (hv : v.Kept) {p : Plan Unit} (h : (v.strand r).plans = p :: ps)
    (hp : p.Keeps r 0) {order : List Resource} (hr : r ∈ order) :
    (v.turns order).Alike ((v.turn r).turns (order.erase r)) := by
  induction order generalizing v with
  | nil => cases hr
  | cons u order ih =>
    by_cases hu : u = r
    · subst hu
      rw [List.erase_cons_head]
      exact (hv.turn u).alike.turns (hv.turn u) order
    · rw [List.erase_cons_tail (by simpa using hu), turns_cons, turns_cons]
      have hapart := Strand.apart_turn_turn (Ne.symm hu) (hv.strand r) (hv.strand u) h hp hv.world
      have hswap : ((v.turn u).turn r).Alike ((v.turn r).turn u) :=
        move_comm hu hapart.symm
      have hplans : ((v.turn u).strand r).plans = p :: ps := by
        rwa [turn, strand_move_of_ne _ _ (Ne.symm hu)]
      have hrest := ih (hv.turn u) hplans ((List.mem_cons.1 hr).resolve_left (Ne.symm hu))
      exact hrest.trans (hswap.turns ((hv.turn u).turn r) _)

end Head

theorem exists_order_of_step (hv : v.Kept) (r : Resource) {order : List Resource}
    (hcount : ∀ u, order.count u = ((v.step r).strand u).plans.length) :
    ∃ order', (∀ u, order'.count u = (v.strand u).plans.length) ∧
      ((v.step r).turns order).Alike (v.turns order') := by
  have hself : ((v.step r).turns order).Alike ((v.step r).turns order) :=
    (hv.step r).alike.turns (hv.step r) order
  have hothers : ∀ u, u ≠ r → order.count u = (v.strand u).plans.length := fun u hu => by
    rw [hcount, step, strand_move_of_ne _ _ hu]
  have hr : order.count r = ((v.strand r).step v.world).2.plans.length := by
    rw [hcount, step, strand_move_self]
  rcases hplans : (v.strand r).plans with _ | ⟨_ | ⟨s, next⟩, ps⟩
  · -- There is no callback left: the step does nothing.
    have hstep : v.step r = v := by simp [step, move, Strand.step, hplans]
    exact ⟨order, fun u => by rw [hcount, hstep], by rwa [hstep] at hself ⊢⟩
  · -- The callback is over, and its turn is the return from it.
    rw [Strand.step_of_done hplans] at hr
    refine ⟨r :: order, fun u => ?_, by rwa [turns_cons, ← step_of_done hplans]⟩
    by_cases hu : u = r
    · subst hu
      simp [hr, hplans]
    · simp [Ne.symm hu, hothers u hu]
  · simp only [Strand.step, hplans] at hr
    rcases hx : (v.world.under ((v.strand r).weather 0) s).2 with _ | a
    · -- The informer dies in the step; the callbacks that it does not come to are put last.
      simp only [hx, Strand.after, List.length_nil] at hr
      have hnil : ((v.step r).strand r).plans = [] := by
        simp [step, Strand.step, hplans, hx, Strand.after]
      have hturns : v.turns (r :: (order ++ List.replicate ps.length r)) =
          (v.step r).turns order := by
        rw [turns_cons, ← turn_step hplans, turn_of_nil hnil, turns_append,
          turns_replicate_of_nil (plans_turns_of_nil hnil order)]
      refine ⟨_, fun u => ?_, by rwa [hturns]⟩
      by_cases hu : u = r
      · subst hu
        simp [hr, hplans, Nat.add_comm]
      · simp [List.count_replicate, Ne.symm hu, hothers u hu]
    · simp only [hx, Strand.after, List.length_cons] at hr
      have hmem : r ∈ order := List.count_pos_iff.1 (by omega)
      have hhead : (Plan.step s next).Keeps r 1 := hv.strand r _ (by simp [hplans])
      rcases hhead.light_or_last with hlight | hlast
      · -- The step can wait for the turn of its callback.
        refine ⟨order, fun u => ?_, turns_of_light hv hplans hlight hmem⟩
        by_cases hu : u = r
        · subst hu
          simp [hr, hplans]
        · exact hothers u hu
      · -- The callback takes its place here, before all callbacks that end later.
        have hcons : ((v.step r).strand r).plans = next a :: ps := by
          simp [step, Strand.step, hplans, hx, Strand.after]
        have hturns := turns_of_last (hv.step r) hcons (hlast a) hmem
        rw [turn_step hplans] at hturns
        refine ⟨r :: order.erase r, fun u => ?_, hturns⟩
        by_cases hu : u = r
        · subst hu
          simp [hr, hplans]
        · simp [List.count_erase, Ne.symm hu, hothers u hu]

/-- Every interleaving in which both informers come to an end has an order of whole callbacks that
comes to the same. -/
theorem exists_order (hv : v.Kept) (σ : List Resource)
    (hover : ∀ r, ((v.steps σ).strand r).plans = []) :
    ∃ order, (∀ r, order.count r = (v.strand r).plans.length) ∧
      (v.steps σ).Alike (v.turns order) := by
  induction σ generalizing v with
  | nil => exact ⟨[], fun r => by rw [show (v.strand r).plans = [] from hover r]; rfl, hv.alike⟩
  | cons r σ ih =>
    obtain ⟨order, hcount, halike⟩ := ih (hv.step r) hover
    obtain ⟨order', hcount', halike'⟩ := exists_order_of_step hv r hcount
    exact ⟨order', hcount', halike.trans halike'⟩

def start (p : Pipeline) (w : World) (calls : Resource → List Callback)
    (weather : Resource → Weather) : Weave :=
  ⟨w, fun r => { plans := (calls r).map (p.on r), weather := weather r }⟩

theorem kept_start {p : Pipeline} (hp : p.subscriptions = Handler.wired) {w : World}
    (hw : w.InMemory) (calls : Resource → List Callback) (weather : Resource → Weather) :
    (start p w calls weather).Kept := by
  refine ⟨fun r q hq => ?_, hw.alike⟩
  obtain ⟨c, -, rfl⟩ := List.mem_map.1 hq
  exact Pipeline.on_keeps hp r c

end Weave

theorem World.Alike.holds {w v : World} (h : w.Alike v) {i : ℕ} {m : Storage.Memory}
    (hm : w.backends[i]? = some (.memory m)) :
    ∃ m', v.backends[i]? = some (.memory m') ∧ m'.strings = m.strings ∧ m'.sets = m.sets ∧
      m'.streams = m.streams := by
  rcases h.backends.at_position i with ⟨hw, -⟩ | ⟨b, b', hw, hv, hb⟩
  · rw [hm] at hw
    cases hw
  · obtain rfl : .memory m = b := Option.some.inj (hm.symm.trans hw)
    cases hb with
    | @memory _ m' hb => exact ⟨m', hv, hb.strings.symm, hb.sets.symm, hb.streams.symm⟩

/-- However the steps of the two informers are interleaved, there is an order of their whole
callbacks, each informer's in its own order, under which both do the same with the same answers, and
which leaves the same times and in every backend the same strings, sets and streams. -/
theorem interleaving_serializes (s : Settings) (schema : Schema) (n : ℕ) {w : World}
    (hw : w.InMemory) (calls : Resource → List Callback) (weather : Resource → Weather)
    (σ : List Resource)
    (hover : ∀ r,
      (((Weave.start (s.pipeline n Handler.wired schema) w calls weather).steps σ).strand r).plans =
        []) :
    ∃ order : List Resource, (∀ r, order.count r = (calls r).length) ∧
      let woven := (Weave.start (s.pipeline n Handler.wired schema) w calls weather).steps σ
      let ordered := (Weave.start (s.pipeline n Handler.wired schema) w calls weather).turns order
      woven.strand = ordered.strand ∧ woven.world.cache = ordered.world.cache ∧
        woven.world.backends.length = ordered.world.backends.length ∧
        ∀ (i : ℕ) m, woven.world.backends[i]? = some (.memory m) →
          ∃ m', ordered.world.backends[i]? = some (.memory m') ∧ m'.strings = m.strings ∧
            m'.sets = m.sets ∧ m'.streams = m.streams := by
  obtain ⟨order, hcount, hstrand, hworld⟩ :=
    Weave.exists_order (Weave.kept_start rfl hw calls weather) σ hover
  refine ⟨order, fun r => ?_, hstrand, hworld.cache, hworld.backends.length_eq,
    fun i m hm => hworld.holds hm⟩
  simpa [Weave.start] using hcount r

/-- A pod is scheduled and ready while its node is added. -/
def Sample.calls : Resource → List Callback
  | .pods => [.updated node pending, .updated pending ready]
  | .nodes => [.added node]

def Sample.alternation : List Resource := (List.replicate 30 [Resource.pods, .nodes]).flatten

theorem interleaving_serializes_sample :
    Sample.world.InMemory ∧
      (∀ r, (((Weave.start (Settings.pipeline {} 2 Handler.wired) Sample.world Sample.calls
        fun _ => Sample.calm 1000).steps Sample.alternation).strand r).plans = []) ∧
      ∃ order : List Resource, order.count .pods = 2 ∧ order.count .nodes = 1 ∧
        ((Weave.start (Settings.pipeline {} 2 Handler.wired) Sample.world Sample.calls
          fun _ => Sample.calm 1000).steps Sample.alternation).world.cache =
        ((Weave.start (Settings.pipeline {} 2 Handler.wired) Sample.world Sample.calls
          fun _ => Sample.calm 1000).turns order).world.cache := by
  have hw : Sample.world.InMemory := by simp [World.InMemory, Sample.world]
  have hover : ∀ r, (((Weave.start (Settings.pipeline {} 2 Handler.wired) Sample.world Sample.calls
      fun _ => Sample.calm 1000).steps Sample.alternation).strand r).plans = [] := by
    rintro ⟨⟩ <;> exact List.isEmpty_iff.1 (by decide +kernel)
  obtain ⟨order, hcount, -, hcache, -⟩ :=
    interleaving_serializes {} .v1 2 hw Sample.calls (fun _ => Sample.calm 1000) Sample.alternation
      hover
  exact ⟨hw, hover, order, hcount .pods, hcount .nodes, hcache⟩

end SessionWatch
