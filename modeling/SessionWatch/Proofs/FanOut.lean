import Mathlib.Data.List.TakeWhile
import SessionWatch.Proofs.Play
import SessionWatch.Storage.FanOut

/-!
What a fan-out asks and what it returns. Whatever the answers are, every backend is asked once and
in order, and the result is that of all answers together: the last one, or every failure in order.
-/

namespace SessionWatch

/-- A step with the answer that it was given. -/
structure Deed where
  step : Step
  answer : step.Answer

/-- By these deeds a plan comes to a result. -/
inductive Plan.Leads {α : Type} : Plan α → List Deed → α → Prop
  | done (a : α) : (Plan.done a).Leads [] a
  | step {s : Step} {next : s.Answer → Plan α} {x : s.Answer} {ds : List Deed} {a : α} :
      (next x).Leads ds a → (Plan.step s next).Leads (⟨s, x⟩ :: ds) a

namespace Plan.Leads

variable {α β : Type}

theorem done_iff {a b : α} {ds : List Deed} : (Plan.done a).Leads ds b ↔ ds = [] ∧ b = a := by
  constructor
  · intro h
    cases h with
    | done => exact ⟨rfl, rfl⟩
  · rintro ⟨rfl, rfl⟩
    exact .done b

theorem step_iff {s : Step} {next : s.Answer → Plan α} {ds : List Deed} {a : α} :
    (Plan.step s next).Leads ds a ↔ ∃ x es, ds = ⟨s, x⟩ :: es ∧ (next x).Leads es a := by
  constructor
  · intro h
    cases h with
    | step h => exact ⟨_, _, rfl, h⟩
  · rintro ⟨x, es, rfl, h⟩
    exact .step h

theorem bind_done_iff {p : Plan α} {f : α → β} {ds : List Deed} {b : β} :
    (p.bind fun a => .done (f a)).Leads ds b ↔ ∃ a, p.Leads ds a ∧ b = f a := by
  induction p generalizing ds with
  | done a => simp [done_iff, and_assoc]
  | step s next ih =>
    simp only [bind_step, step_iff, ih]
    constructor
    · rintro ⟨x, es, rfl, a, h, rfl⟩
      exact ⟨a, ⟨x, es, rfl, h⟩, rfl⟩
    · rintro ⟨a, ⟨x, es, rfl, h⟩, rfl⟩
      exact ⟨x, es, rfl, a, h, rfl⟩

end Plan.Leads

namespace Storage

variable {α : Type}

def isFailure : Result α → Bool
  | .ok _ => false
  | .error _ => true

/-- The frames of an answer; a success has none. -/
def framesOf : Result α → List Frame
  | .ok _ => []
  | .error r => r.frames

@[simp] theorem isFailure_ok (a : α) : isFailure (.ok a : Result α) = false := rfl

@[simp] theorem isFailure_error (r : Report) : isFailure (.error r : Result α) = true := rfl

@[simp] theorem framesOf_ok (a : α) : framesOf (.ok a : Result α) = [] := rfl

@[simp] theorem framesOf_error (r : Report) : framesOf (.error r : Result α) = r.frames := rfl

theorem framesOf_of_not_failure {y : Result α} (h : isFailure y = false) : framesOf y = [] := by
  cases y with
  | ok a => rfl
  | error r => cases h

/-- What the answers of all backends come to. -/
structure Judged (as : List (Result α)) (x : Result α) : Prop where
  nobody : x = .error (.of (.storage .noBackend)) ↔ as = []
  everybody : ∀ a, x = .ok a ↔ (∀ y ∈ as, isFailure y = false) ∧ as.getLast? = some (.ok a)
  somebody : (∃ y ∈ as, isFailure y = true) → x = .error
    ⟨.cause (.storage (.partialFailure (as.countP isFailure) as.length)) :: as.flatMap framesOf⟩

theorem Judged.exists_ok {as : List (Result α)} {x : Result α} (h : Judged as x) (hne : as ≠ [])
    (hok : ∀ y ∈ as, isFailure y = false) : ∃ a, x = .ok a := by
  have hlast : as.getLast? = some (as.getLast hne) := List.getLast?_eq_some_getLast hne
  have hlastok := hok _ (List.getLast_mem hne)
  cases ha : as.getLast hne with
  | error r =>
    rw [ha] at hlastok
    cases hlastok
  | ok a =>
    rw [ha] at hlast
    exact ⟨a, (h.everybody a).2 ⟨hok, hlast⟩⟩

theorem Judged.unique {as : List (Result α)} {x y : Result α} (hx : Judged as x)
    (hy : Judged as y) : x = y := by
  by_cases hfail : ∃ z ∈ as, isFailure z = true
  · rw [hx.somebody hfail, hy.somebody hfail]
  · have hok : ∀ z ∈ as, isFailure z = false := fun z hz => by
      cases h : isFailure z with
      | false => rfl
      | true => exact absurd ⟨z, hz, h⟩ hfail
    rcases as.eq_nil_or_concat with rfl | ⟨bs, b, rfl⟩
    · rw [hx.nobody.2 rfl, hy.nobody.2 rfl]
    · cases b with
      | error r => exact absurd (hok (.error r) (by simp)) (by simp)
      | ok a =>
        have hlast : (bs.concat (.ok a : Result α)).getLast? = some (.ok a) := by simp
        rw [(hx.everybody a).2 ⟨hok, hlast⟩, (hy.everybody a).2 ⟨hok, hlast⟩]

namespace Tally

variable {n : ℕ} (as : List (Result α))

def ofAnswers (n : ℕ) (as : List (Result α)) : Tally α := as.foldl record { total := n }

theorem ofAnswers_concat (a : Result α) :
    ofAnswers n (as ++ [a]) = (ofAnswers n as).record a := by
  simp [ofAnswers]

@[simp] theorem total_record (t : Tally α) (a : Result α) : (t.record a).total = t.total := by
  cases a <;> rfl

theorem total_ofAnswers : (ofAnswers n as).total = n := by
  induction as using List.reverseRecOn with
  | nil => rfl
  | append_singleton as a ih => rw [ofAnswers_concat, total_record, ih]

theorem failed_ofAnswers : (ofAnswers n as).failed = as.countP isFailure := by
  induction as using List.reverseRecOn with
  | nil => rfl
  | append_singleton as a ih =>
    rw [ofAnswers_concat, List.countP_append, ← ih]
    cases a <;> simp [record]

theorem failures_ofAnswers : (ofAnswers n as).failures =
    if ∃ y ∈ as, isFailure y = true then some ⟨as.flatMap framesOf⟩ else none := by
  induction as using List.reverseRecOn with
  | nil => rfl
  | append_singleton as a ih =>
    rw [ofAnswers_concat]
    cases a with
    | ok a => simp [record, ih]
    | error r =>
      by_cases hfail : ∃ y ∈ as, isFailure y = true
      · rw [if_pos hfail] at ih
        simp [record, ih, Report.extend]
      · rw [if_neg hfail] at ih
        have hframes : as.flatMap framesOf = [] := by
          refine List.flatMap_eq_nil_iff.2 fun y hy => framesOf_of_not_failure ?_
          exact Bool.eq_false_iff.2 fun h => hfail ⟨y, hy, h⟩
        simp [record, ih, hframes]

theorem last_ofAnswers {a : Result α} (h : as.getLast? = some a) (hok : isFailure a = false) :
    (ofAnswers n as).last = a.toOption := by
  obtain ⟨bs, rfl⟩ := List.getLast?_eq_some_iff.1 h
  rw [ofAnswers_concat]
  cases a with
  | ok a => rfl
  | error r => cases hok

theorem judged_ofAnswers : Judged as (ofAnswers as.length as).verdict := by
  have hfailures := failures_ofAnswers (n := as.length) as
  by_cases hfail : ∃ y ∈ as, isFailure y = true
  · have hverdict : (ofAnswers as.length as).verdict = .error
        ⟨.cause (.storage (.partialFailure (as.countP isFailure) as.length)) ::
          as.flatMap framesOf⟩ := by
      rw [if_pos hfail] at hfailures
      simp only [verdict, hfailures, failed_ofAnswers, total_ofAnswers]
      rfl
    obtain ⟨y, hy, hyfail⟩ := hfail
    refine ⟨?_, fun a => ?_, fun _ => hverdict⟩
    · rw [hverdict]
      constructor
      · intro h
        simp [Report.of] at h
      · rintro rfl
        cases hy
    · rw [hverdict]
      constructor
      · intro h
        cases h
      · rintro ⟨hok, -⟩
        rw [hok y hy] at hyfail
        cases hyfail
  · have hok : ∀ y ∈ as, isFailure y = false := fun y hy =>
      Bool.eq_false_iff.2 fun h => hfail ⟨y, hy, h⟩
    rw [if_neg hfail] at hfailures
    rcases as.eq_nil_or_concat with rfl | ⟨bs, b, rfl⟩
    · exact ⟨⟨fun _ => rfl, fun _ => rfl⟩, fun a => by simp [ofAnswers, verdict], by simp⟩
    · cases b with
      | error r => exact absurd (hok (.error r) (by simp)) (by simp)
      | ok a =>
        have hlast : (bs.concat (.ok a : Result α)).getLast? = some (.ok a) := by simp
        have hverdict : (ofAnswers (bs.concat (.ok a)).length (bs.concat (.ok a))).verdict =
            .ok a := by
          have htally := last_ofAnswers (n := (bs.concat (.ok a)).length) _ hlast rfl
          simp only [verdict, hfailures, htally]
          rfl
        refine ⟨?_, fun a' => ?_, fun h => absurd h hfail⟩
        · rw [hverdict]
          simp
        · rw [hverdict, hlast]
          constructor
          · rintro ⟨⟩
            exact ⟨hok, rfl⟩
          · rintro ⟨-, ⟨⟩⟩
            rfl

end Tally

/-- The deeds of asking the backends at these positions. -/
def asking (r : Request) (is : List ℕ) (as : List (Result r.Answer)) : List Deed :=
  is.zipWith (fun i a => ⟨.exchange i r, a⟩) as

theorem askEach_nil (r : Request) (t : Tally r.Answer) : askEach r t [] = .done t := rfl

theorem askEach_cons (r : Request) (t : Tally r.Answer) (i : ℕ) (is : List ℕ) :
    askEach r t (i :: is) = .step (.exchange i r) fun a => askEach r (t.record a) is := rfl

theorem askEach_leads_iff {r : Request} {t t' : Tally r.Answer} {is : List ℕ} {ds : List Deed} :
    (askEach r t is).Leads ds t' ↔
      ∃ as, as.length = is.length ∧ ds = asking r is as ∧ t' = as.foldl Tally.record t := by
  induction is generalizing t ds with
  | nil =>
    simp only [askEach_nil, Plan.Leads.done_iff, List.length_nil, List.length_eq_zero_iff]
    constructor
    · rintro ⟨rfl, rfl⟩
      exact ⟨[], rfl, rfl, rfl⟩
    · rintro ⟨as, rfl, rfl, rfl⟩
      exact ⟨rfl, rfl⟩
  | cons i is ih =>
    rw [askEach_cons, Plan.Leads.step_iff]
    constructor
    · rintro ⟨a, es, rfl, h⟩
      obtain ⟨as, hlen, rfl, rfl⟩ := ih.1 h
      exact ⟨a :: as, by simp [hlen], rfl, rfl⟩
    · rintro ⟨as, hlen, rfl, rfl⟩
      cases as with
      | nil => simp at hlen
      | cons a as => exact ⟨a, _, rfl, ih.2 ⟨as, by simpa using hlen, rfl, rfl⟩⟩

theorem fanOut_eq (n : ℕ) (r : Request) : fanOut n r =
    (askEach r { total := n } (List.range n)).bind fun t => .done t.verdict := rfl

theorem fanOut_leads_iff {n : ℕ} {r : Request} {ds : List Deed} {x : Result r.Answer} :
    (fanOut n r).Leads ds x ↔
      ∃ as, as.length = n ∧ ds = asking r (List.range n) as ∧ Judged as x := by
  rw [fanOut_eq, Plan.Leads.bind_done_iff]
  constructor
  · rintro ⟨t, h, rfl⟩
    obtain ⟨as, hlen, rfl, rfl⟩ := askEach_leads_iff.1 h
    rw [List.length_range] at hlen
    subst hlen
    exact ⟨as, rfl, rfl, Tally.judged_ofAnswers as⟩
  · rintro ⟨as, rfl, rfl, hx⟩
    have h : (askEach r { total := as.length } (List.range as.length)).Leads
        (asking r (List.range as.length) as) (Tally.ofAnswers as.length as) :=
      askEach_leads_iff.2 ⟨as, by simp, rfl, rfl⟩
    exact ⟨_, h, hx.unique (Tally.judged_ofAnswers as)⟩

/-- A backend after it is asked under the conditions of the moment, and its answer. -/
def Backend.asked (b : Backend) (i : ℕ) (c : Conditions) (r : Request) :
    Backend × Option (Result r.Answer) :=
  (b.refusing (c.refused i)).exchange c.clock r

/-- How many are asked: the process dies at the first that does not answer. -/
def reached {β : Type} (xs : List (Backend × Option β)) : ℕ :=
  (xs.takeWhile (·.2.isSome)).length + 1

def answers? {β : Type} (xs : List (Backend × Option β)) : Option (List β) :=
  xs.mapM fun x => x.2

@[simp] theorem answers?_nil {β : Type} : answers? ([] : List (Backend × Option β)) = some [] :=
  rfl

theorem answers?_cons_some {β : Type} {x : Backend × Option β} {a : β} (h : x.2 = some a)
    (xs : List (Backend × Option β)) : answers? (x :: xs) = (answers? xs).map (a :: ·) := by
  rw [answers?, List.mapM_cons, h]
  cases hxs : xs.mapM fun x => x.2 with
  | none => simp [answers?, hxs]
  | some as => simp [answers?, hxs]

theorem answers?_cons_none {β : Type} {x : Backend × Option β} (h : x.2 = none)
    (xs : List (Backend × Option β)) : answers? (x :: xs) = none := by
  rw [answers?, List.mapM_cons, h]
  rfl

theorem answers?_eq_some_iff {β : Type} {xs : List (Backend × Option β)} {as : List β} :
    answers? xs = some as ↔ xs.map (·.2) = as.map some := by
  induction xs generalizing as with
  | nil => cases as <;> simp
  | cons x xs ih =>
    cases hx : x.2 with
    | none => cases as <;> simp [answers?_cons_none hx, hx]
    | some a => cases as <;> simp [answers?_cons_some hx, hx, ih, and_comm]

theorem length_of_answers? {β : Type} {xs : List (Backend × Option β)} {as : List β}
    (h : answers? xs = some as) : as.length = xs.length := by
  simpa using (congrArg List.length (answers?_eq_some_iff.1 h)).symm

theorem exists_answers? {xs : List (Backend × Option (Result α))}
    (h : ∀ x ∈ xs, ∃ a, x.2 = some (.ok a)) :
    ∃ as, answers? xs = some as ∧ ∀ y ∈ as, isFailure y = false := by
  induction xs with
  | nil => exact ⟨[], rfl, by simp⟩
  | cons x xs ih =>
    obtain ⟨a, ha⟩ := h x (by simp)
    obtain ⟨as, has, hok⟩ := ih fun y hy => h y (by simp [hy])
    refine ⟨.ok a :: as, by rw [answers?_cons_some ha, has]; rfl, ?_⟩
    simpa using hok

theorem le_reached_of_answers? {β : Type} {xs : List (Backend × Option β)} {as : List β}
    (h : answers? xs = some as) : xs.length ≤ reached xs := by
  have hall : ∀ x ∈ xs, x.2.isSome = true := by
    intro x hx
    have hmem : x.2 ∈ as.map some := by
      rw [← answers?_eq_some_iff.1 h]
      exact List.mem_map_of_mem hx
    obtain ⟨a, -, ha⟩ := List.mem_map.1 hmem
    rw [← ha]
    rfl
  rw [reached, List.takeWhile_eq_self_iff.2 hall]
  omega

theorem modify_append_cons {β : Type} (f : β → β) (l : List β) (b : β) (r : List β) :
    (l ++ b :: r).modify l.length f = l ++ f b :: r := by
  induction l with
  | nil => rfl
  | cons a l ih => simpa using ih

end Storage

theorem Scene.perform_exchange {w : World} {ω : Weather} {pre post : List Storage.Backend}
    {b : Storage.Backend} (hw : w.backends = pre ++ b :: post) (r : Storage.Request) :
    Scene.perform ⟨w, ω⟩ (.exchange pre.length r) =
      (⟨{ w with
            clock := (ω 0).clock
            backends := pre ++ (b.asked pre.length (ω 0) r).1 :: post },
          fun n => ω (n + 1)⟩,
        (b.asked pre.length (ω 0) r).2) := by
  have hfacing : w.backends.modify pre.length (·.refusing ((ω 0).refused pre.length)) =
      pre ++ b.refusing ((ω 0).refused pre.length) :: post := by
    rw [hw, Storage.modify_append_cons]
  have hat : (pre ++ b.refusing ((ω 0).refused pre.length) :: post)[pre.length]? =
      some (b.refusing ((ω 0).refused pre.length)) := by simp
  simp only [perform, World.facing, World.perform, World.exchange, hfacing, hat]
  simp [Storage.Backend.asked]

namespace Storage

theorem askEach_play (r : Request) (t : Tally r.Answer) (pre bs : List Backend) {w : World}
    (ω : Weather) (hw : w.backends = pre ++ bs) :
    let xs := bs.mapIdx fun j b => b.asked (pre.length + j) (ω j) r
    let ended := (askEach r t (List.range' pre.length bs.length)).play ⟨w, ω⟩
    ended.1.world.backends = pre ++ ((xs.map (·.1)).take (reached xs) ++ bs.drop (reached xs)) ∧
      ended.2 = (answers? xs).map (·.foldl Tally.record t) := by
  induction bs generalizing pre w ω t with
  | nil => exact ⟨by simpa [askEach_nil] using hw, rfl⟩
  | cons b bs ih =>
    intro xs ended
    let x := b.asked pre.length (ω 0) r
    let v : World := { w with clock := (ω 0).clock, backends := pre ++ x.1 :: bs }
    have hended : ended = match x.2 with
        | some a => (askEach r (t.record a) (List.range' (pre.length + 1) bs.length)).play
            ⟨v, fun n => ω (n + 1)⟩
        | none => (⟨v, fun n => ω (n + 1)⟩, none) := by
      simp only [ended, List.length_cons, List.range'_succ]
      rw [askEach_cons, Plan.play_step, Scene.perform_exchange hw]
      cases x.2 <;> rfl
    have hxs : xs = x :: bs.mapIdx fun j b => b.asked ((pre ++ [x.1]).length + j) (ω (j + 1)) r := by
      simp only [xs, x, List.mapIdx_cons, Nat.add_zero, List.length_append, List.length_singleton,
        Nat.add_assoc, Nat.add_comm 1]
    have hv : v.backends = (pre ++ [x.1]) ++ bs := by simp [v]
    rw [hended, hxs]
    cases hx : x.2 with
    | none => 
      refine ⟨?_, ?_⟩
      · simp [reached, hx, v]
      · rw [answers?_cons_none hx]
        rfl
    | some a =>
      have hrest := ih (t.record a) (pre ++ [x.1]) (fun n => ω (n + 1)) hv
      rw [List.length_append, List.length_singleton] at hrest
      have hreached : ∀ ys : List (Backend × Option (Result r.Answer)),
          reached (x :: ys) = reached ys + 1 := fun ys => by simp [reached, hx]
      refine ⟨?_, ?_⟩
      · rw [hreached, List.map_cons, List.take_succ_cons, List.drop_succ_cons]
        simpa using hrest.1
      · rw [answers?_cons_some hx, Option.map_map]
        simpa [Function.comp_def] using hrest.2

theorem fanOut_play (r : Request) (w : World) (ω : Weather) :
    let xs := w.backends.mapIdx fun i b => b.asked i (ω i) r
    let ended := (fanOut w.backends.length r).play ⟨w, ω⟩
    ended.1.world.backends =
        (xs.map (·.1)).take (reached xs) ++ w.backends.drop (reached xs) ∧
      ended.2 = (answers? xs).map fun as => (Tally.ofAnswers w.backends.length as).verdict := by
  have hask := askEach_play r { total := w.backends.length } [] w.backends ω rfl
  simp only [List.length_nil, Nat.zero_add, List.nil_append, ← List.range_eq_range'] at hask
  simp only [fanOut_eq, Plan.play_bind_done]
  rw [hask.1, hask.2, Option.map_map]
  exact ⟨rfl, rfl⟩

/-- If every backend answers, each is left as it is after its answer and all answers are judged. -/
theorem fanOut_play_answered {r : Request} {w : World} {ω : Weather}
    {as : List (Result r.Answer)}
    (has : answers? (w.backends.mapIdx fun i b => b.asked i (ω i) r) = some as) :
    let ended := (fanOut w.backends.length r).play ⟨w, ω⟩
    ended.1.world.backends = (w.backends.mapIdx fun i b => b.asked i (ω i) r).map (·.1) ∧
      ∃ x, ended.2 = some x ∧ Judged as x := by
  intro ended
  obtain ⟨hbackends, hanswers⟩ := fanOut_play r w ω
  have hreached := le_reached_of_answers? has
  have hlength := length_of_answers? has
  rw [List.length_mapIdx] at hreached hlength
  refine ⟨?_, _, by rw [hanswers, has]; rfl, ?_⟩
  · rw [hbackends, List.take_of_length_le (by simpa using hreached),
      List.drop_of_length_le hreached, List.append_nil]
  · rw [← hlength]
    exact Tally.judged_ofAnswers as

theorem fanOut_ok {r : Request} {w : World} {ω : Weather} (hne : w.backends ≠ [])
    (hok : ∀ (i : ℕ) (b : Backend), w.backends[i]? = some b →
      ∃ a, (b.asked i (ω i) r).2 = some (.ok a)) :
    let ended := (fanOut w.backends.length r).play ⟨w, ω⟩
    ended.1.world.backends = w.backends.mapIdx (fun i b => (b.asked i (ω i) r).1) ∧
      ∃ a, ended.2 = some (.ok a) := by
  intro ended
  have hall : ∀ x ∈ w.backends.mapIdx fun i b => b.asked i (ω i) r, ∃ a, x.2 = some (.ok a) := by
    intro x hx
    obtain ⟨i, hi, rfl⟩ := List.mem_mapIdx.1 hx
    exact hok i _ (List.getElem?_eq_getElem hi)
  obtain ⟨as, has, hasok⟩ := exists_answers? hall
  obtain ⟨hbackends, x, hx, hjudged⟩ := fanOut_play_answered has
  refine ⟨?_, ?_⟩
  · rw [hbackends]
    exact List.ext_getElem? fun i => by simp [Function.comp_def]
  · have hnil : as ≠ [] := by
      rintro rfl
      have hlength := length_of_answers? has
      rw [List.length_mapIdx] at hlength
      exact hne (List.eq_nil_of_length_eq_zero hlength.symm)
    obtain ⟨a, rfl⟩ := hjudged.exists_ok hnil hasok
    exact ⟨a, hx⟩

/-- A request goes to every backend once and in order, whatever is answered, and the result is what
the answers come to together; each backend is left as the request leaves it in its own state. -/
theorem fanOut_asks_each (r : Request) :
    (∀ n ds x, (fanOut n r).Leads ds x ↔
      ∃ as, as.length = n ∧ ds = asking r (List.range n) as ∧ Judged as x) ∧
    ∀ (w : World) (ω : Weather),
      let xs := w.backends.mapIdx fun i b => b.asked i (ω i) r
      let ended := (fanOut w.backends.length r).play ⟨w, ω⟩
      match answers? xs with
      | some as => ended.1.world.backends = xs.map (·.1) ∧ ∃ x, ended.2 = some x ∧ Judged as x
      | none =>
        ended.1.world.backends =
          (xs.map (·.1)).take (reached xs) ++ w.backends.drop (reached xs) ∧ ended.2 = none := by
  refine ⟨fun n ds x => fanOut_leads_iff, fun w ω => ?_⟩
  intro xs ended
  cases has : answers? xs with
  | none =>
    obtain ⟨hbackends, hanswers⟩ := fanOut_play r w ω
    exact ⟨hbackends, by rw [hanswers, has]; rfl⟩
  | some as => exact fanOut_play_answered has

end Storage

end SessionWatch
