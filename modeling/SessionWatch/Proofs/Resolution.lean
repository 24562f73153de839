import Mathlib.Tactic
import SessionWatch.Application

/-!
How the settings of a run come about: what a file says or else the defaults, then what the command
line puts in their place, then the conditions of a start. The namespace of the pods is followed to
the paths that are asked for.
-/

namespace SessionWatch

namespace Settings

/-! ### What a run starts with -/

def written (file? : String → Option String) : Option String → Result Settings
  | none => .ok {}
  | some path =>
    match file? path with
    | some text => parse text
    | none => .error (Report.external.because (.settings (.unread path)))

section Load

variable {file? : String → Option String} {a : RunArguments} {d s : Settings}

theorem load_eq (file? : String → Option String) (a : RunArguments) : load file? a =
    match written file? a.config with
    | .error r => .error r
    | .ok d => (d.override a).validate.map fun _ => d.override a := by
  unfold load written
  cases a.config with
  | none => rfl
  | some path =>
    simp only
    cases file? path with
    | none => rfl
    | some text =>
      simp only
      cases parse text <;> rfl

/-- What the command line puts in place is looked at before a run is refused. -/
theorem load_of_objection {message : String} (hd : written file? a.config = .ok d)
    (h : (d.override a).objection? = some message) :
    load file? a = .error (.of (.settings (.invalid message))) := by
  rw [load_eq, hd]
  simp only [validate, h]
  rfl

theorem load_eq_ok_iff : load file? a = .ok s ↔
    ∃ d, written file? a.config = .ok d ∧ s = d.override a ∧ s.objection? = none := by
  rw [load_eq]
  cases hw : written file? a.config with
  | error r => simp
  | ok d =>
    cases hobjection : (d.override a).objection? with
    | some message =>
      simp only [validate, hobjection, Except.map, reduceCtorEq, false_iff]
      rintro ⟨_, ⟨⟩, rfl, hnone⟩
      rw [hobjection] at hnone
      cases hnone
    | none =>
      simp only [validate, hobjection, Except.map, Except.ok.injEq]
      constructor
      · rintro rfl
        exact ⟨d, rfl, rfl, hobjection⟩
      · rintro ⟨_, rfl, rfl, -⟩
        rfl

end Load

/-- The conditions of a start. -/
structure Fit (s : Settings) : Prop where
  keys : ∀ f ∈ s.required, f.2 ≠ ""
  backends : s.redis.mock = false →
    s.redis.enabledBackends ≠ [] ∧ s.redis.connectTimeoutSecs ≠ 0

theorem objection?_eq_none_iff {s : Settings} : s.objection? = none ↔ s.Fit := by
  have hkeys : (s.required.find? fun f => f.2 == "") = none ↔ ∀ f ∈ s.required, f.2 ≠ "" := by
    simp only [List.find?_eq_none, beq_iff_eq, ne_eq]
  unfold objection?
  cases hfind : s.required.find? fun f => f.2 == "" with
  | some f =>
    rw [hfind] at hkeys
    simp only [reduceCtorEq, false_iff]
    exact fun hfit => absurd (hkeys.2 hfit.keys) nofun
  | none =>
    have hfull := hkeys.1 hfind
    simp only
    split_ifs with hmock hnone hzero
    · exact iff_of_true rfl ⟨hfull, fun hoff => absurd hmock (by simp [hoff])⟩
    · refine iff_of_false nofun fun hfit => ?_
      exact (hfit.backends (by simpa using hmock)).1 (List.isEmpty_iff.1 hnone)
    · exact iff_of_false nofun fun hfit => (hfit.backends (by simpa using hmock)).2 hzero
    · exact iff_of_true rfl
        ⟨hfull, fun _ => ⟨fun hnil => hnone (List.isEmpty_iff.2 hnil), hzero⟩⟩

/-! ### The namespace of the pods -/

def namespaceField? (file? : String → Option String) (config : Option String) : Option Yaml :=
  match (config.bind file?).bind Yaml.parse? with
  | some [y] => (y.fields? fieldNames).bind (·.get? "pod_namespace")
  | _ => none

/-- The namespace that a file gives; a null is none if it is plain. -/
def namespaceOfFile? (file? : String → Option String) (config : Option String) : Option String :=
  ((namespaceField? file? config).bind Yaml.optionalText?).join

theorem podNamespace_of_ofYaml? {y : Yaml} {d : Settings} (h : ofYaml? y = some d) :
    d.podNamespace =
      (((y.fields? fieldNames).bind (·.get? "pod_namespace")).bind Yaml.optionalText?).join := by
  unfold ofYaml? at h
  obtain ⟨fields, hfields, h⟩ := Option.bind_eq_some_iff.1 h
  iterate 2 obtain ⟨_, -, h⟩ := Option.bind_eq_some_iff.1 h
  obtain ⟨ns, hns, h⟩ := Option.bind_eq_some_iff.1 h
  iterate 11 obtain ⟨_, -, h⟩ := Option.bind_eq_some_iff.1 h
  have hd : d.podNamespace = ns := by rw [← Option.some.inj h]
  rw [hfields, hd]
  simp only [fieldOr] at hns
  cases hget : fields.get? "pod_namespace" with
  | none =>
    rw [hget] at hns
    simp [hget, ← Option.some.inj hns]
  | some v =>
    rw [hget] at hns
    simp [hget, hns]

theorem podNamespace_of_written {file? : String → Option String} {config : Option String}
    {d : Settings} (h : written file? config = .ok d) :
    d.podNamespace = namespaceOfFile? file? config := by
  unfold written at h
  cases config with
  | none =>
    obtain rfl := Except.ok.inj h
    rfl
  | some path =>
    simp only at h
    cases hfile : file? path with
    | none =>
      rw [hfile] at h
      cases h
    | some text =>
      simp only [hfile, parse, ofText?] at h
      simp only [namespaceOfFile?, namespaceField?, Option.bind_some, hfile]
      rcases hparse : Yaml.parse? text with _ | _ | ⟨y, _ | ⟨y', ys⟩⟩
      · simp [hparse] at h
      · -- A text without a document is read as if nothing were written.
        simp only [hparse] at h
        obtain rfl := Except.ok.inj h
        rfl
      · simp only [hparse] at h
        cases hy : ofYaml? y with
        | none => simp [hy] at h
        | some d' =>
          rw [hy] at h
          obtain rfl := Except.ok.inj h
          exact podNamespace_of_ofYaml? hy
      · simp [hparse] at h

/-- Only an empty text in quotes or in a block of its own is kept as one. -/
theorem namespaceOfFile?_eq_empty_iff {file? : String → Option String} {config : Option String} :
    namespaceOfFile? file? config = some "" ↔
      namespaceField? file? config = some (.scalar "" false) := by
  unfold namespaceOfFile?
  cases namespaceField? file? config with
  | none => simp
  | some y =>
    cases y with
    | scalar t plain =>
      cases plain with
      | false => simp [Yaml.optionalText?]
      | true =>
        simp only [Yaml.optionalText?, Option.bind_some, Option.join_some]
        split_ifs with hnull
        · simp
        · have ht : t ≠ "" := by
            rintro rfl
            exact hnull rfl
          simp [ht]
    | _ => simp [Yaml.optionalText?]

end Settings

/-! ### Where the pods are asked for -/

namespace Application

open Cluster

variable (a : Application)

theorem asked_hear (r : Running) (kind : Resource) (answer : Response) :
    ((a.hear r kind answer).1.asked.map (·.path)) = r.asked.map (·.path) ++ [a.path kind] := by
  simp [hear]

def hearEach (r : Running) (script : List (Resource × Response)) : Running :=
  script.foldl (fun r x => (a.hear r x.1 x.2).1) r

theorem hearAll_eq_hearEach (r : Running) (script : List (Resource × Response)) :
    ∃ k, (a.hearAll r script).1 = a.hearEach r (script.take k) := by
  induction script generalizing r with
  | nil => exact ⟨0, rfl⟩
  | cons x xs ih =>
    rw [hearAll]
    rcases hheard : a.hear r x.1 x.2 with ⟨r', _ | _⟩
    · exact ⟨1, by simp [hearEach, hheard]⟩
    · obtain ⟨k, hk⟩ := ih r'
      exact ⟨k + 1, by simp [hk, hearEach, hheard]⟩

theorem run_eq_hearEach (around : Surroundings) (w : World)
    (script : List (Resource × Response)) :
    ∃ k, (a.run around w script).1 = a.hearEach { world := w } (script.take k) := by
  rw [run]
  cases Target.find around.file? around.kubeconfig a.settings.kubeconfig with
  | error r => exact ⟨0, rfl⟩
  | ok t =>
    cases Probe.serve around.portTaken with
    | error r => exact ⟨0, rfl⟩
    | ok _ =>
      obtain ⟨k, hk⟩ := a.hearAll_eq_hearEach { world := w } script
      rcases hheard : a.hearAll { world := w } script with ⟨r, _ | kind⟩ <;>
        exact ⟨k, by simpa [hheard] using hk⟩

theorem asked_hearEach (r : Running) (script : List (Resource × Response)) :
    (a.hearEach r script).asked.map (·.path) =
      r.asked.map (·.path) ++ script.map fun x => a.path x.1 := by
  induction script generalizing r with
  | nil => simp [hearEach]
  | cons x xs ih =>
    have hrest := ih (a.hear r x.1 x.2).1
    rw [asked_hear, List.append_assoc] at hrest
    exact hrest

theorem asked_run (around : Surroundings) (w : World) (script : List (Resource × Response)) :
    ∃ k, (a.run around w script).1.asked.map (·.path) =
      (script.take k).map fun x => a.path x.1 := by
  obtain ⟨k, hk⟩ := a.run_eq_hearEach around w script
  exact ⟨k, by simp [hk, asked_hearEach]⟩

theorem path_pods_eq_nameless_iff :
    a.path .pods = "/api/v1/namespaces//pods" ↔ a.settings.podNamespace = some "" := by
  unfold path resourcePath
  cases hns : a.settings.podNamespace with
  | none => exact iff_of_false (by decide) nofun
  | some ns =>
    simp only [Option.some.injEq]
    constructor
    · intro h
      have hparts : "/api/v1/namespaces//pods".length =
          "/api/v1/namespaces/".length + "/".length + "pods".length := by decide +kernel
      have hlength := congrArg String.length h
      simp only [Resource.plural, String.length_append] at hlength
      exact String.length_eq_zero_iff.1 (by omega)
    · rintro rfl
      rfl

end Application

/-- The namespace of a run is the one of the command line, where an empty one stands for all, or
else the one of the file, where an empty one stands for itself if it is in quotes or in a block of
its own; then the pods are asked for under no name. -/
theorem namespace_resolved {file? : String → Option String} {a : RunArguments} {s : Settings}
    (h : Settings.load file? a = .ok s) :
    (s.podNamespace =
      match a.podNamespace with
      | some ns => if ns = "" then none else some ns
      | none => Settings.namespaceOfFile? file? a.config) ∧
    (s.podNamespace = some "" ↔
      a.podNamespace = none ∧
        Settings.namespaceField? file? a.config = some (.scalar "" false)) ∧
    ∀ (p : Pipeline) (around : Surroundings) (w : World)
      (script : List (Resource × Cluster.Response)),
      let app : Application := ⟨s, p⟩
      (∃ k, (app.run around w script).1.asked.map (·.path) =
        (script.take k).map fun x => app.path x.1) ∧
      app.path .nodes = "/api/v1/nodes" ∧
      (s.podNamespace = none → app.path .pods = "/api/v1/pods") ∧
      (app.path .pods = "/api/v1/namespaces//pods" ↔
        a.podNamespace = none ∧
          Settings.namespaceField? file? a.config = some (.scalar "" false)) := by
  obtain ⟨d, hd, rfl, -⟩ := Settings.load_eq_ok_iff.1 h
  have hresolved : (d.override a).podNamespace =
      match a.podNamespace with
      | some ns => if ns = "" then none else some ns
      | none => Settings.namespaceOfFile? file? a.config := by
    rw [← Settings.podNamespace_of_written hd]
    rfl
  have hempty : (d.override a).podNamespace = some "" ↔ a.podNamespace = none ∧
      Settings.namespaceField? file? a.config = some (.scalar "" false) := by
    rw [hresolved, ← Settings.namespaceOfFile?_eq_empty_iff]
    cases a.podNamespace with
    | none => simp
    | some ns => by_cases hns : ns = "" <;> simp [hns]
  refine ⟨hresolved, hempty, fun p around w script => ?_⟩
  intro app
  refine ⟨app.asked_run around w script, rfl, fun hnone => ?_,
    app.path_pods_eq_nameless_iff.trans hempty⟩
  simp only [app, Application.path, hnone]
  rfl

namespace Sample

def files (path : String) : Option String :=
  if path = "settings" then some "pod_namespace: \"\"\nredis:\n  mock: true\n" else none

def nameless : Settings := { podNamespace := some "", redis := { mock := true } }

def inProcess : World := { clock := ⟨0, 0⟩, backends := [.memory { name := "mock" }] }

end Sample

theorem namespace_resolved_sample :
    Settings.load Sample.files { config := some "settings" } = .ok Sample.nameless ∧
      Sample.nameless.podNamespace = Settings.namespaceOfFile? Sample.files (some "settings") ∧
      (Application.mk Sample.nameless (Sample.nameless.pipeline 1 Handler.wired)).path .pods =
        "/api/v1/namespaces//pods" := by
  have hload : Settings.load Sample.files { config := some "settings" } = .ok Sample.nameless := by
    decide +kernel
  obtain ⟨hresolved, hempty, hpaths⟩ := namespace_resolved hload
  obtain ⟨-, -, -, hpods⟩ := hpaths (Sample.nameless.pipeline 1 Handler.wired) {} Sample.inProcess []
  exact ⟨hload, hresolved, hpods.2 (hempty.1 rfl)⟩

/-- The command line has an empty namespace stand for all, while the one of the file is kept, and
the pods are asked for under no name. -/
theorem nameless_namespace_watched :
    Settings.load Sample.files { config := some "settings", podNamespace := some "" } =
        .ok { Sample.nameless with podNamespace := none } ∧
      Settings.load Sample.files { config := some "settings" } = .ok Sample.nameless ∧
      ((Application.mk Sample.nameless (Sample.nameless.pipeline 1 Handler.wired)).hear
        { world := Sample.inProcess } .pods ⟨200, []⟩).1.asked =
          [⟨"/api/v1/namespaces//pods", .list none⟩] :=
  ⟨by decide +kernel, by decide +kernel, by decide +kernel⟩

end SessionWatch
