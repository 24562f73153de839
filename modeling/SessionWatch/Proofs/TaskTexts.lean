import SessionWatch.Proofs.Chronology

/-!
Tasks are read back from the entries that they are made into, and no two tasks are made into the
same fields. What the decoders take for a payload or a kind is told exactly; of all the texts with
one value, one is written, and all others come down to it.
-/

namespace SessionWatch

open Storage

/-! ### Values under names -/

namespace Json

/-- The values stand for the names: in an array in their order, or each under its name in an object,
in any order and among fields of other names. -/
inductive Gives (names : List String) (values : List Json) : Json → Prop
  | array : values.length = names.length → Gives names values (.arr values)
  | object {fields others : List (String × Json)} : values.length = names.length →
      fields.Perm (names.zip values ++ others) → (∀ f ∈ others, f.1 ∉ names) →
      Gives names values (.obj fields)

section Fields

variable {fields others : List (String × Json)} {names : List String} {values : List Json}
  {name : String} {v : Json}

theorem onlyField?_eq_some_iff : onlyField? fields name = some v ↔
    fields.filter (fun f => f.1 == name) = [(name, v)] := by
  unfold onlyField?
  constructor
  · intro h
    split at h
    · next f hf =>
      obtain rfl := Option.some.inj h
      have hmem : f ∈ fields.filter fun f => f.1 == name := by simp [hf]
      have hname : f.1 = name := by simpa using (List.mem_filter.1 hmem).2
      rw [hf, ← hname]
    · cases h
  · intro h
    rw [h]

theorem filter_of_not_mem (h : ∀ f ∈ fields, f.1 ≠ name) :
    fields.filter (fun f => f.1 == name) = [] :=
  List.filter_eq_nil_iff.2 fun f hf => by simpa using h f hf

theorem filter_zip (h : name ∉ names) (values : List Json) :
    (names.zip values).filter (fun f => f.1 == name) = [] :=
  filter_of_not_mem fun _ hf heq => h (heq ▸ (List.of_mem_zip hf).1)

theorem perm_of_mapM_onlyField? (hnames : names.Nodup)
    (h : names.mapM (onlyField? fields) = some values) : values.length = names.length ∧
      ∃ others, fields.Perm (names.zip values ++ others) ∧ ∀ f ∈ others, f.1 ∉ names := by
  induction names generalizing values with
  | nil =>
    obtain rfl : [] = values := Option.some.inj h
    exact ⟨rfl, fields, .refl _, by simp⟩
  | cons name names ih =>
    obtain ⟨hname, hrest⟩ := List.nodup_cons.1 hnames
    rw [List.mapM_cons] at h
    obtain ⟨v, hv, h⟩ := Option.bind_eq_some_iff.1 h
    obtain ⟨vs, hvs, h⟩ := Option.bind_eq_some_iff.1 h
    obtain rfl : v :: vs = values := Option.some.inj h
    obtain ⟨hlength, others, hperm, hothers⟩ := ih hrest hvs
    -- the field of the first name is among those that the other names leave
    have hone : others.filter (fun f => f.1 == name) = [(name, v)] := by
      have hfilter := hperm.filter fun f => f.1 == name
      rw [onlyField?_eq_some_iff.1 hv, List.filter_append, filter_zip hname,
        List.nil_append] at hfilter
      exact (List.singleton_perm.1 hfilter).symm
    have hsplit := List.filter_append_perm (fun f : String × Json => f.1 == name) others
    rw [hone] at hsplit
    refine ⟨by simpa using hlength, others.filter fun f => !(f.1 == name), ?_, fun f hf => ?_⟩
    · exact hperm.trans ((hsplit.symm.append_left _).trans List.perm_middle)
    · obtain ⟨hmem, hne⟩ := List.mem_filter.1 hf
      simpa [hothers f hmem] using hne

theorem mapM_onlyField?_of_perm (hnames : names.Nodup) (hlength : values.length = names.length)
    (hperm : fields.Perm (names.zip values ++ others)) (hothers : ∀ f ∈ others, f.1 ∉ names) :
    names.mapM (onlyField? fields) = some values := by
  induction names generalizing values others with
  | nil =>
    rw [List.eq_nil_of_length_eq_zero hlength]
    rfl
  | cons name names ih =>
    obtain ⟨hname, hrest⟩ := List.nodup_cons.1 hnames
    obtain ⟨v, vs, rfl⟩ := List.exists_cons_of_length_eq_add_one hlength
    have hone : onlyField? fields name = some v := by
      have hnone : others.filter (fun f => f.1 == name) = [] :=
        filter_of_not_mem fun f hf h => hothers f hf (h ▸ List.mem_cons_self)
      have hfilter := hperm.filter fun f => f.1 == name
      rw [List.zip_cons_cons, List.cons_append, List.filter_cons_of_pos (by simp),
        List.filter_append, filter_zip hname, hnone] at hfilter
      exact onlyField?_eq_some_iff.2 (List.perm_singleton.1 hfilter)
    have hall : names.mapM (onlyField? fields) = some vs := by
      refine ih hrest (by simpa using hlength) (hperm.trans List.perm_middle.symm) fun f hf => ?_
      rcases List.mem_cons.1 hf with rfl | hf
      · exact hname
      · exact fun h => hothers f hf (List.mem_cons_of_mem _ h)
    rw [List.mapM_cons, hone, hall]
    rfl

theorem slots?_eq_some_iff {j : Json} (hnames : names.Nodup) :
    j.slots? names = some values ↔ j.Gives names values := by
  cases j with
  | arr items =>
    constructor
    · intro h
      obtain ⟨hlength, h⟩ := Option.ite_none_right_eq_some.1 h
      obtain rfl := Option.some.inj h
      exact .array hlength
    · rintro ⟨hlength⟩
      exact if_pos hlength
  | obj fields =>
    constructor
    · intro h
      obtain ⟨hlength, others, hperm, hothers⟩ := perm_of_mapM_onlyField? hnames h
      exact .object hlength hperm hothers
    · rintro (_ | ⟨hlength, hperm, hothers⟩)
      exact mapM_onlyField?_of_perm hnames hlength hperm hothers
  | _ => exact ⟨nofun, nofun⟩

end Fields

theorem text?_eq_some_iff {j : Json} {s : String} : j.text? = some s ↔ j = .str s := by
  cases j <;> simp [text?]

theorem word?_eq_some_iff {j : Json} {t : Int64} : j.word? = some t ↔ j = .int t.toInt := by
  constructor
  · intro h
    cases j with
    | int i =>
      obtain ⟨⟨hlow, hhigh⟩, ht⟩ := Option.ite_none_right_eq_some.1 h
      obtain rfl := Option.some.inj ht
      rw [Int64.toInt_ofInt_of_le hlow (Int.lt_of_le_sub_one hhigh)]
    | _ => cases h
  · rintro rfl
    exact word?_int_toInt t

end Json

/-! ### Texts of values -/

/-- Values and their texts: every value is read back from what it is written as. -/
structure Codec (α : Type) where
  encode : α → String
  decode? : String → Option α
  decode?_encode : ∀ a, decode? (encode a) = some a

namespace Codec

variable {α : Type} (c : Codec α)

theorem encode_injective : Function.Injective c.encode := by
  intro a b h
  have hread := congrArg c.decode? h
  rw [c.decode?_encode, c.decode?_encode] at hread
  exact Option.some.inj hread

/-- What a text comes down to: its value as it is written. -/
def normal? (s : String) : Option String := (c.decode? s).map c.encode

/-- Of all texts with one value one is written, and all others come down to it. -/
def Normalizes : Prop :=
  ∀ s t, c.normal? s = some t →
    c.decode? t = c.decode? s ∧ c.normal? t = some t ∧
      ∀ s', c.normal? s' = some t ↔ c.decode? s' = c.decode? s

theorem normalizes : c.Normalizes := by
  intro s t h
  obtain ⟨a, ha, rfl⟩ := Option.map_eq_some_iff.1 h
  refine ⟨by rw [c.decode?_encode, ha], by rw [normal?, c.decode?_encode, Option.map_some],
    fun s' => ⟨fun h' => ?_, fun h' => by rw [normal?, h', ha, Option.map_some]⟩⟩
  obtain ⟨b, hb, heq⟩ := Option.map_eq_some_iff.1 h'
  rw [hb, ha, c.encode_injective heq]

end Codec

/-! ### Payloads and kinds -/

namespace Session

namespace Ready

def values (r : Ready) : List Json :=
  [.str r.sessionId, .str r.nodeName, .int r.nodeProvisioned.toInt, .int r.podScheduled.toInt,
    .str r.podIp]

theorem ofJson?_eq_some_iff {j : Json} {r : Ready} :
    ofJson? j = some r ↔ j.Gives names r.values := by
  rw [← Json.slots?_eq_some_iff (by decide : names.Nodup)]
  unfold ofJson?
  constructor
  · intro h
    split at h
    · next s n tn tp ip hslots =>
      split at h
      · next hs hn htn htp hip =>
        obtain rfl := Option.some.inj h
        rw [hslots, values, Json.text?_eq_some_iff.1 hs, Json.text?_eq_some_iff.1 hn,
          Json.word?_eq_some_iff.1 htn, Json.word?_eq_some_iff.1 htp, Json.text?_eq_some_iff.1 hip]
      · cases h
    · cases h
  · intro h
    simp [h, values, Json.text?, Json.word?_int_toInt]

theorem decode?_eq_some_iff {s : String} {r : Ready} :
    decode? s = some r ↔ ∃ j, Json.parse? s = some j ∧ j.Gives names r.values := by
  simp only [decode?, Option.bind_eq_some_iff, ofJson?_eq_some_iff]

def codec : Codec Ready := ⟨encode, decode?, decode?_encode⟩

end Ready

namespace Deletable

def values (d : Deletable) : List Json := [.str d.sessionId]

theorem ofJson?_eq_some_iff {j : Json} {d : Deletable} :
    ofJson? j = some d ↔ j.Gives names d.values := by
  rw [← Json.slots?_eq_some_iff (by decide : names.Nodup)]
  unfold ofJson?
  constructor
  · intro h
    split at h
    · next s hslots =>
      obtain ⟨id, hid, rfl⟩ := Option.map_eq_some_iff.1 h
      rw [hslots, values, Json.text?_eq_some_iff.1 hid]
    · cases h
  · intro h
    simp [h, values, Json.text?]

theorem decode?_eq_some_iff {s : String} {d : Deletable} :
    decode? s = some d ↔ ∃ j, Json.parse? s = some j ∧ j.Gives names d.values := by
  simp only [decode?, Option.bind_eq_some_iff, ofJson?_eq_some_iff]

def codec : Codec Deletable := ⟨encode, decode?, decode?_encode⟩

end Deletable

namespace TaskKind

theorem ofName?_eq_some_iff {s : String} {k : TaskKind} : ofName? s = some k ↔ s = k.name := by
  constructor
  · intro h
    have hname := List.find?_some h
    simpa using (beq_iff_eq.1 hname).symm
  · rintro rfl
    cases k <;> decide

theorem ofJson?_eq_some_iff {j : Json} {k : TaskKind} :
    ofJson? j = some k ↔ j = .str k.name ∨ j = .obj [(k.name, .null)] := by
  constructor
  · intro h
    unfold ofJson? at h
    split at h
    · exact .inl (by rw [ofName?_eq_some_iff.1 h])
    · exact .inr (by rw [ofName?_eq_some_iff.1 h])
    · cases h
  · rintro (rfl | rfl) <;> exact ofName?_eq_some_iff.2 rfl

theorem decode?_eq_some_iff {s : String} {k : TaskKind} : decode? s = some k ↔
    Json.parse? s = some (.str k.name) ∨ Json.parse? s = some (.obj [(k.name, .null)]) := by
  simp only [decode?, Option.bind_eq_some_iff, ofJson?_eq_some_iff]
  constructor
  · rintro ⟨j, hj, rfl | rfl⟩
    · exact .inl hj
    · exact .inr hj
  · rintro (h | h)
    · exact ⟨_, h, .inl rfl⟩
    · exact ⟨_, h, .inr rfl⟩

theorem decode?_encode (k : TaskKind) : decode? k.encode = some k :=
  decode?_eq_some_iff.2 (.inl (Json.parse?_render_str k.name))

def codec : Codec TaskKind := ⟨encode, decode?, decode?_encode⟩

end TaskKind

/-! ### Tasks and their entries -/

inductive Payload where
  | ready (r : Ready)
  | deletable (d : Deletable)
  deriving DecidableEq

namespace Payload

def encode : Payload → String
  | .ready r => r.encode
  | .deletable d => d.encode

/-- Payloads of the two sorts differ in the number of their fields. -/
theorem encode_injective : Function.Injective encode := by
  have hdiffer : ∀ (r : Ready) (d : Deletable), r.encode ≠ d.encode := by
    intro r d h
    have hparse := congrArg Json.parse? h
    rw [Ready.parse?_encode, Deletable.parse?_encode] at hparse
    have hfields := Json.obj.inj (Option.some.inj hparse)
    simpa [Ready.names, Deletable.names] using congrArg List.length hfields
  intro p q h
  cases p with
  | ready r =>
    cases q with
    | ready r' => exact congrArg ready (Ready.codec.encode_injective h)
    | deletable d => exact absurd h (hdiffer r d)
  | deletable d =>
    cases q with
    | ready r => exact absurd h.symm (hdiffer r d)
    | deletable d' => exact congrArg deletable (Deletable.codec.encode_injective h)

end Payload

def Payload.task (p : Payload) (kind : TaskKind) (created : Int64) : Task :=
  ⟨kind, p.encode, created⟩

/-- A task as it is read from an entry: its kind by the name, what it is about by a decoder, and the
time in decimal. -/
def readTask? {α : Type} (c : Codec α) (e : Entry) : Option (TaskKind × α × Int64) :=
  match (e.field? "TaskType").bind TaskKind.ofName?, (e.field? "TaskInfo").bind c.decode?,
      (e.field? "TaskCreateTimeStamp").bind fun s => Decimal.toInt64? s.toList with
  | some kind, some a, some created => some (kind, a, created)
  | _, _, _ => none

theorem readTask?_fields {α : Type} (c : Codec α) (id : String) (kind : TaskKind) (a : α)
    (created : Int64) :
    readTask? c ⟨id, (Task.mk kind (c.encode a) created).fields⟩ = some (kind, a, created) := by
  have hkind : TaskKind.ofName? kind.name = some kind := TaskKind.ofName?_eq_some_iff.2 rfl
  simp [readTask?, Entry.field?, Task.fields, hkind, c.decode?_encode, Decimal.textOfInt]

theorem fields_task_injective :
    Function.Injective fun x : TaskKind × Payload × Int64 => (x.2.1.task x.1 x.2.2).fields := by
  rintro ⟨k, p, t⟩ ⟨k', p', t'⟩ h
  obtain ⟨hkind, hinfo, hcreated⟩ := Task.mk.inj (Task.fields_injective h)
  exact congrArg₂ Prod.mk hkind (congrArg₂ Prod.mk (Payload.encode_injective hinfo) hcreated)

/-- A task is read back from its entry, and two tasks never have the same fields. A text is taken
for a payload just if it is JSON that gives all its values and no other ones for its names, in an
array or in an object with whatever else, and for a kind just if it is its name, alone or over a
null; and all texts of one value come down to the one that is written. -/
theorem tasks_read_back :
    (∀ (id : String) (kind : TaskKind) (created : Int64),
      (∀ r, readTask? Ready.codec ⟨id, ((Payload.ready r).task kind created).fields⟩ =
        some (kind, r, created)) ∧
      ∀ d, readTask? Deletable.codec ⟨id, ((Payload.deletable d).task kind created).fields⟩ =
        some (kind, d, created)) ∧
    (Function.Injective fun x : TaskKind × Payload × Int64 => (x.2.1.task x.1 x.2.2).fields) ∧
    (Ready.codec.Normalizes ∧ Deletable.codec.Normalizes ∧ TaskKind.codec.Normalizes) ∧
    (∀ s r, Ready.decode? s = some r ↔
      ∃ j, Json.parse? s = some j ∧ j.Gives Ready.names r.values) ∧
    (∀ s d, Deletable.decode? s = some d ↔
      ∃ j, Json.parse? s = some j ∧ j.Gives Deletable.names d.values) ∧
    ∀ s k, TaskKind.decode? s = some k ↔
      Json.parse? s = some (.str k.name) ∨ Json.parse? s = some (.obj [(k.name, .null)]) :=
  ⟨fun id kind created => ⟨fun r => readTask?_fields Ready.codec id kind r created,
      fun d => readTask?_fields Deletable.codec id kind d created⟩,
    fields_task_injective,
    ⟨Ready.codec.normalizes, Deletable.codec.normalizes, TaskKind.codec.normalizes⟩,
    fun _ _ => Ready.decode?_eq_some_iff, fun _ _ => Deletable.decode?_eq_some_iff,
    fun _ _ => TaskKind.decode?_eq_some_iff⟩

namespace Sample

/-- A payload with marks in its texts, and with the first and the last of all times. -/
def marked : Ready := ⟨"a\"\\", "😀", .maxValue, .minValue, ""⟩

def listed : String := "[\"a\\u0022\\\\\", \"😀\", 9223372036854775807,-9223372036854775808,\"\"]\n"

def ended : Deletable := ⟨"a\"😀"⟩

def loose : String := "\x7b\"more\":[\x7b\x7d, 1e2],\n\"sessionId\":\"a\\u0022\\ud83d\\ude00\" \x7d"

end Sample

theorem tasks_read_back_sample :
    Deletable.codec.normal? Sample.loose = some Sample.ended.encode ∧
      Deletable.codec.decode? Sample.ended.encode = Deletable.codec.decode? Sample.loose ∧
      Ready.codec.normal? Sample.listed = some Sample.marked.encode ∧
      readTask? Ready.codec ⟨"7-0", ((Payload.ready Sample.marked).task .enqueue (-1)).fields⟩ =
        some (.enqueue, Sample.marked, -1) := by
  have hloose : Deletable.codec.decode? Sample.loose = some Sample.ended := by decide +kernel
  have hlisted : Ready.codec.decode? Sample.listed = some Sample.marked := by decide +kernel
  have hnormal : Deletable.codec.normal? Sample.loose = some Sample.ended.encode :=
    congrArg (Option.map Deletable.encode) hloose
  obtain ⟨hread, -, ⟨-, hdeletable, -⟩, -⟩ := tasks_read_back
  obtain ⟨hsame, -⟩ := hdeletable _ _ hnormal
  exact ⟨hnormal, hsame, congrArg (Option.map Ready.encode) hlisted,
    (hread "7-0" .enqueue (-1)).1 _⟩

end Session

end SessionWatch
