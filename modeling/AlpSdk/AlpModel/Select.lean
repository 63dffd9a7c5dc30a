import AlpSdk.Status
import AlpSdk.AlpModel
import AlpSdk.Library.Ranked

-- The choice of a target of a package (src/backends/inference/alp_model_select.c).
namespace AlpSdk.AlpModel

open Library.Ranked

-- `alp_inference_backend_t`
inductive InferenceBackend where
  | auto
  | cpu
  | ethosU
  | drpai
  | deepxDxm1
  deriving DecidableEq

-- `alp_inference_model_format_t`
inductive ModelFormat where
  | tflite
  | vela
  | drpai
  | dxnn
  | executorch
  | onnx
  deriving DecidableEq

-- `auto` stands for an unknown string.
def backendEnum (s : CString) : InferenceBackend :=
  if s = ascii "cpu" then .cpu
  else if s = ascii "ethos_u" then .ethosU
  else if s = ascii "drpai" then .drpai
  else if s = ascii "deepx_dxm1" then .deepxDxm1
  else .auto

-- `alp_model_select_env_t`
structure SelectEnv where
  socRef : Option CString := none
  availSilicon : List CString := []
  arenaSramKib : UInt32 := 0
  autoOrder : List InferenceBackend := []

-- `alp_model_select_result_t`
structure SelectResult where
  targetIndex : UInt32
  backend : InferenceBackend
  format : ModelFormat
  arenaBytes : UInt32
  arenaFitUnverified : Bool
  deriving DecidableEq

def rank (be : InferenceBackend) (env : SelectEnv) : Nat :=
  if env.autoOrder.length > 0 then env.autoOrder.findIdx (· == be) else 0

def fmtEnum (s : CString) : Option ModelFormat :=
  if s = ascii "tflite" then some .tflite
  else if s = ascii "vela_tflite" then some .vela
  else if s = ascii "drpai_dir" then some .drpai
  else if s = ascii "dxnn" then some .dxnn
  else if s = ascii "executorch" then some .executorch
  else if s = ascii "onnx" then some .onnx
  else none

def siliconAvailable (ref : CString) (env : SelectEnv) : Bool :=
  ref == ascii "*" || env.socRef == some ref || env.availSilicon.any (ref == ·)

def fits (t : Target) (env : SelectEnv) : Bool :=
  env.arenaSramKib == 0 || decide (t.reqSramKib ≤ env.arenaSramKib)

-- A target with its index.
abbrev Indexed : Type := Target × Nat

-- The locals of the loop.
structure Scan where
  best : Option Indexed
  cpu : Option Indexed
  anyBackend : Bool
  cpuNoFit : Bool

def scanTarget (env : SelectEnv) (requested : InferenceBackend) (s : Scan) (t : Indexed) : Scan :=
  let be := backendEnum t.1.backend
  if be = .auto then s
  else if !siliconAvailable t.1.siliconRef env then s
  else if be = .cpu then
    if fits t.1 env then { s with cpu := some t } else { s with cpuNoFit := true }
  else if requested ≠ .auto ∧ be ≠ requested then s
  else if !fits t.1 env then { s with anyBackend := true }
  else
    match s.best with
    | none => { s with anyBackend := true, best := some t }
    | some best =>
        if rank be env < rank (backendEnum best.1.backend) env then { s with anyBackend := true, best := some t }
        else { s with anyBackend := true }

def scan (env : SelectEnv) (requested : InferenceBackend) (targets : List Target) : Scan :=
  targets.zipIdx.foldl (scanTarget env requested) ⟨none, none, false, false⟩

-- `out` comes back as the call leaves it.
def select (m : Model) (env : SelectEnv) (requested : InferenceBackend) (out : SelectResult) :
    Status × SelectResult :=
  if m.targets.length = 0 then (.error .inval, out)
  else
    let s := scan env requested m.targets
    if requested ≠ .auto ∧ requested ≠ .cpu ∧ s.best = none ∧ s.anyBackend = false ∧
        !m.targets.any fun t => backendEnum t.backend == requested then (.error .notFound, out)
    else
      let best := if s.best = none ∧ (requested = .auto ∨ requested = .cpu) then s.cpu else s.best
      match best with
      | none => (.error (if s.anyBackend || s.cpuNoFit then .noFit else .noBackend), out)
      | some t =>
          match fmtEnum t.1.blobFormat with
          | none => (.error .inval, out)
          | some format =>
              (.ok (), {
                targetIndex := t.2.toUInt32
                backend := backendEnum t.1.backend
                format := format
                arenaBytes := t.1.arenaBytes
                arenaFitUnverified := env.arenaSramKib == 0 })

section Scan

variable (env : SelectEnv) (requested : InferenceBackend)

-- The targets that the request is about.
def considered (t : Target) : Bool :=
  backendEnum t.backend != .auto && siliconAvailable t.siliconRef env &&
    (requested == .auto || backendEnum t.backend == requested)

def isCpu (t : Target) : Bool := backendEnum t.backend == .cpu

-- A CPU target on this device, whatever the request.
def availableCpu (t : Target) : Bool := isCpu t && siliconAvailable t.siliconRef env

def consideredNpu (t : Target) : Bool := considered env requested t && !isCpu t

abbrev indexedRank (t : Indexed) : Nat := rank (backendEnum t.1.backend) env

def fittingNpu (t : Indexed) : Bool := consideredNpu env requested t.1 && fits t.1 env

theorem scanTarget_eq (s : Scan) (t : Indexed) : scanTarget env requested s t = {
    best := if fittingNpu env requested t then better (indexedRank env) s.best t else s.best
    cpu := if availableCpu env t.1 && fits t.1 env then some t else s.cpu
    anyBackend := s.anyBackend || consideredNpu env requested t.1
    cpuNoFit := s.cpuNoFit || (availableCpu env t.1 && !fits t.1 env) } := by
  unfold scanTarget fittingNpu consideredNpu considered availableCpu isCpu
  by_cases hauto : backendEnum t.1.backend = .auto
  · have hcpu : (InferenceBackend.auto == InferenceBackend.cpu) = false := rfl
    simp [hauto, hcpu]
  · cases hsilicon : siliconAvailable t.1.siliconRef env with
    | false => simp
    | true =>
        by_cases hcpu : backendEnum t.1.backend = .cpu
        · cases hfits : fits t.1 env <;> simp [hcpu]
        · by_cases hother : requested ≠ .auto ∧ backendEnum t.1.backend ≠ requested
          · have hrequest : (requested == .auto || backendEnum t.1.backend == requested) = false := by
              simp [hother]
            have hnpu : (backendEnum t.1.backend == .cpu) = false := by simp [hcpu]
            simp [hauto, hcpu, hother, hrequest, hnpu]
          · have hrequest : (requested == .auto || backendEnum t.1.backend == requested) = true := by
              simpa [or_iff_not_imp_left] using hother
            cases hfits : fits t.1 env with
            | false => simp [hauto, hcpu, hother, hrequest]
            | true =>
                cases hbest : s.best with
                | none => simp [hauto, hcpu, hother, hrequest, better]
                | some best =>
                    by_cases hrank : rank (backendEnum t.1.backend) env < rank (backendEnum best.1.backend) env <;>
                      simp [hauto, hcpu, hother, hrequest, better, hrank]

theorem scan_foldl (l : List Indexed) (s : Scan) : l.foldl (scanTarget env requested) s = {
    best := (l.filter (fittingNpu env requested)).foldl (better (indexedRank env)) s.best
    cpu := (l.filter fun t => availableCpu env t.1 && fits t.1 env).getLast?.or s.cpu
    anyBackend := s.anyBackend || l.any fun t => consideredNpu env requested t.1
    cpuNoFit := s.cpuNoFit || l.any fun t => availableCpu env t.1 && !fits t.1 env } := by
  induction l generalizing s with
  | nil => simp
  | cons t rest ih =>
      rw [List.foldl_cons, ih, scanTarget_eq]
      congr 1
      · by_cases h : fittingNpu env requested t = true <;> simp [h]
      · cases h : (availableCpu env t.1 && fits t.1 env)
        · simp [h]
        · simp only [h, if_true, List.filter_cons_of_pos, List.getLast?_cons]
          cases (rest.filter fun t => availableCpu env t.1 && fits t.1 env).getLast? <;> rfl
      · simp [Bool.or_assoc]
      · simp [Bool.or_assoc]

theorem any_zipIdx (targets : List Target) (p : Target → Bool) : (targets.zipIdx.any fun t => p t.1) = targets.any p := by
  conv_rhs => rw [← List.zipIdx_map_fst 0 targets, List.any_map]
  rfl

theorem scan_eq (targets : List Target) : scan env requested targets = {
    best := least (indexedRank env) (targets.zipIdx.filter (fittingNpu env requested))
    cpu := (targets.zipIdx.filter fun t => availableCpu env t.1 && fits t.1 env).getLast?
    anyBackend := targets.any (consideredNpu env requested)
    cpuNoFit := targets.any fun t => availableCpu env t && !fits t env } := by
  have hfoldl := scan_foldl env requested targets.zipIdx ⟨none, none, false, false⟩
  rw [any_zipIdx targets (consideredNpu env requested), any_zipIdx targets fun t => availableCpu env t && !fits t env] at hfoldl
  rw [scan, hfoldl]
  simp [least]

-- A request for an NPU that no target of the package names.
def Absent (targets : List Target) : Prop :=
  requested ≠ .auto ∧ requested ≠ .cpu ∧ ∀ t ∈ targets, backendEnum t.backend ≠ requested

-- The first of the fitting NPU targets of least rank, or else some CPU target that fits.
def Picked (targets : List Target) (t : Indexed) : Prop :=
  t ∈ targets.zipIdx ∧ considered env requested t.1 = true ∧ fits t.1 env = true ∧
    if targets.any (fun t => consideredNpu env requested t && fits t env) = true then
      First (indexedRank env) (targets.zipIdx.filter (fittingNpu env requested)) t
    else isCpu t.1 = true

def delivered (t : Indexed) (out : SelectResult) : Status × SelectResult :=
  match fmtEnum t.1.blobFormat with
  | none => (.error .inval, out)
  | some format =>
      (.ok (), {
        targetIndex := t.2.toUInt32
        backend := backendEnum t.1.backend
        format := format
        arenaBytes := t.1.arenaBytes
        arenaFitUnverified := env.arenaSramKib == 0 })

variable {env requested}

theorem mem_fittingNpu {targets : List Target} {t : Indexed} :
    t ∈ targets.zipIdx.filter (fittingNpu env requested) ↔
      t ∈ targets.zipIdx ∧ consideredNpu env requested t.1 = true ∧ fits t.1 env = true := by
  simp [fittingNpu]

theorem scan_best {targets : List Target} {t : Indexed} (h : (scan env requested targets).best = some t) :
    Picked env requested targets t := by
  rw [scan_eq] at h
  have hfirst := first_of_least h
  obtain ⟨hmem, hnpu, hfits⟩ := mem_fittingNpu.mp hfirst.mem
  have hconsidered : considered env requested t.1 = true := (Bool.and_eq_true_iff.mp hnpu).1
  have hany : targets.any (fun t => consideredNpu env requested t && fits t env) = true :=
    List.any_eq_true.mpr ⟨t.1, List.fst_mem_of_mem_zipIdx hmem, by simp [hnpu, hfits]⟩
  refine ⟨hmem, hconsidered, hfits, ?_⟩
  rw [if_pos hany]
  exact hfirst

theorem scan_best_none {targets : List Target} : (scan env requested targets).best = none ↔
    targets.any (fun t => consideredNpu env requested t && fits t env) = false := by
  rw [scan_eq, least_eq_none, ← any_zipIdx targets fun t => consideredNpu env requested t && fits t env]
  simp [List.filter_eq_nil_iff, fittingNpu]

theorem considered_cpu (h : requested = .auto ∨ requested = .cpu) {t : Target} :
    (isCpu t && considered env requested t) = availableCpu env t := by
  unfold considered availableCpu isCpu
  by_cases hcpu : backendEnum t.backend = .cpu
  · cases h with
    | inl hauto => simp [hcpu, hauto]
    | inr hcpu' => simp [hcpu, hcpu']
  · have hnot : (backendEnum t.backend == .cpu) = false := by simp [hcpu]
    simp [hnot]

-- Where several CPU targets fit, the loop keeps the last.
theorem scan_cpu {targets : List Target} {t : Indexed} (hrequest : requested = .auto ∨ requested = .cpu)
    (hbest : (scan env requested targets).best = none) (h : (scan env requested targets).cpu = some t) :
    Picked env requested targets t := by
  rw [scan_best_none] at hbest
  rw [scan_eq] at h
  have hmem := List.mem_of_getLast? h
  obtain ⟨hzip, hcpu⟩ := List.mem_filter.mp hmem
  obtain ⟨havailable, hfits⟩ := Bool.and_eq_true_iff.mp hcpu
  rw [← considered_cpu hrequest] at havailable
  obtain ⟨hiscpu, hconsidered⟩ := Bool.and_eq_true_iff.mp havailable
  refine ⟨hzip, hconsidered, hfits, ?_⟩
  rw [if_neg (Bool.not_eq_true _ ▸ hbest)]
  exact hiscpu

def chosen (s : Scan) (requested : InferenceBackend) : Option Indexed :=
  if s.best = none ∧ (requested = .auto ∨ requested = .cpu) then s.cpu else s.best

theorem picked_of_chosen {targets : List Target} {t : Indexed}
    (h : chosen (scan env requested targets) requested = some t) : Picked env requested targets t := by
  unfold chosen at h
  by_cases hcpu : (scan env requested targets).best = none ∧ (requested = .auto ∨ requested = .cpu)
  · rw [if_pos hcpu] at h
    exact scan_cpu hcpu.2 hcpu.1 h
  · rw [if_neg hcpu] at h
    exact scan_best h

theorem considered_cases {t : Target} (h : considered env requested t = true) :
    consideredNpu env requested t = true ∨
      (requested = .auto ∨ requested = .cpu) ∧ availableCpu env t = true := by
  cases hcpu : isCpu t with
  | false => exact .inl (by simp [consideredNpu, h, hcpu])
  | true =>
      right
      have hrequest : requested = .auto ∨ requested = .cpu := by
        have hbackend : backendEnum t.backend = .cpu := by simpa [isCpu] using hcpu
        simp only [considered, hbackend, Bool.and_eq_true, Bool.or_eq_true, beq_iff_eq] at h
        exact h.2.imp id Eq.symm
      refine ⟨hrequest, ?_⟩
      rw [← considered_cpu hrequest, hcpu, h]
      rfl

theorem chosen_eq_none {targets : List Target} : chosen (scan env requested targets) requested = none ↔
    ∀ t ∈ targets, considered env requested t = true → fits t env = false := by
  constructor
  · intro h t ht hconsidered
    unfold chosen at h
    have hbest : (scan env requested targets).best = none := by
      by_contra hsome
      rw [if_neg (fun hcpu => hsome hcpu.1)] at h
      exact hsome h
    cases considered_cases hconsidered with
    | inl hnpu =>
        have hnone := scan_best_none.mp hbest
        rw [List.any_eq_false] at hnone
        simpa [hnpu] using hnone t ht
    | inr hcpu =>
        rw [if_pos ⟨hbest, hcpu.1⟩, scan_eq, List.getLast?_eq_none_iff, List.filter_eq_nil_iff] at h
        obtain ⟨i, hi⟩ := List.mem_iff_getElem?.mp ht
        simpa [hcpu.2] using h (t, i) (List.mem_zipIdx_iff_getElem?.mpr hi)
  · intro h
    cases hchosen : chosen (scan env requested targets) requested with
    | none => rfl
    | some t =>
        obtain ⟨hmem, hconsidered, hfits, -⟩ := picked_of_chosen hchosen
        rw [h t.1 (List.fst_mem_of_mem_zipIdx hmem) hconsidered] at hfits
        cases hfits

theorem oversized {targets : List Target}
    (h : ∀ t ∈ targets, considered env requested t = true → fits t env = false) :
    ((scan env requested targets).anyBackend || (scan env requested targets).cpuNoFit) =
      (targets.any (considered env requested) || targets.any fun t => availableCpu env t && !fits t env) := by
  rw [scan_eq, Bool.eq_iff_iff]
  simp only [Bool.or_eq_true, List.any_eq_true]
  constructor
  · rintro (⟨t, ht, hnpu⟩ | hcpu)
    · exact .inl ⟨t, ht, (Bool.and_eq_true_iff.mp hnpu).1⟩
    · exact .inr hcpu
  · rintro (⟨t, ht, hconsidered⟩ | hcpu)
    · cases considered_cases hconsidered with
      | inl hnpu => exact .inl ⟨t, ht, hnpu⟩
      | inr hcpu => exact .inr ⟨t, ht, by simp [hcpu.2, h t ht hconsidered]⟩
    · exact .inr hcpu

theorem absent_iff {targets : List Target} :
    (requested ≠ .auto ∧ requested ≠ .cpu ∧ (scan env requested targets).best = none ∧
      (scan env requested targets).anyBackend = false ∧
      !targets.any fun t => backendEnum t.backend == requested) ↔ Absent requested targets := by
  constructor
  · rintro ⟨hauto, hcpu, -, -, habsent⟩
    exact ⟨hauto, hcpu, by simpa using habsent⟩
  · rintro ⟨hauto, hcpu, habsent⟩
    have hnpu : ∀ t ∈ targets, consideredNpu env requested t = false := by
      intro t ht
      simp [consideredNpu, considered, habsent t ht, hauto]
    refine ⟨hauto, hcpu, ?_, ?_, by simpa using habsent⟩
    · rw [scan_best_none, List.any_eq_false]
      exact fun t ht => by simp [hnpu t ht]
    · rw [scan_eq, List.any_eq_false]
      exact fun t ht => by simp [hnpu t ht]

theorem select_absent {m : Model} (hne : m.targets ≠ []) (h : Absent requested m.targets) (out : SelectResult) :
    select m env requested out = (.error .notFound, out) := by
  unfold select
  rw [if_neg (by simpa using hne)]
  exact if_pos (absent_iff.mpr h)

theorem select_present {m : Model} (hne : m.targets ≠ []) (h : ¬ Absent requested m.targets) (out : SelectResult) :
    select m env requested out =
      match chosen (scan env requested m.targets) requested with
      | none => (.error (if (scan env requested m.targets).anyBackend || (scan env requested m.targets).cpuNoFit
          then .noFit else .noBackend), out)
      | some t => delivered env t out := by
  unfold select
  rw [if_neg (by simpa using hne)]
  exact if_neg (fun habsent => h (absent_iff.mp habsent))

theorem delivered_error {t : Indexed} {out : SelectResult} (h : (delivered env t out).1 ≠ .ok ()) :
    delivered env t out = (.error .inval, out) := by
  unfold delivered at h ⊢
  cases hformat : fmtEnum t.1.blobFormat with
  | none => rfl
  | some format => simp [hformat] at h

theorem select_spec (m : Model) (env : SelectEnv) (requested : InferenceBackend) (out : SelectResult)
    (hne : m.targets ≠ []) :
    ((select m env requested out).1 = .error .notFound ↔ Absent requested m.targets) ∧
    (¬ Absent requested m.targets →
      ((∃ t ∈ m.targets, considered env requested t = true ∧ fits t env = true) →
        ∃ t, Picked env requested m.targets t ∧ select m env requested out = delivered env t out) ∧
      ((∀ t ∈ m.targets, considered env requested t = true → fits t env = false) →
        select m env requested out =
          (.error (if m.targets.any (considered env requested) ||
            m.targets.any (fun t => availableCpu env t && !fits t env) then .noFit else .noBackend), out))) ∧
    ((select m env requested out).1 ≠ .ok () → (select m env requested out).2 = out) := by
  by_cases habsent : Absent requested m.targets
  · rw [select_absent hne habsent]
    exact ⟨iff_of_true rfl habsent, fun h => absurd habsent h, fun _ => rfl⟩
  · rw [select_present hne habsent]
    cases hchosen : chosen (scan env requested m.targets) requested with
    | none =>
        have hnone := chosen_eq_none.mp hchosen
        dsimp only
        rw [oversized hnone]
        refine ⟨iff_of_false ?_ habsent, fun _ => ⟨?_, fun _ => rfl⟩, fun _ => rfl⟩
        · split <;> simp
        · rintro ⟨t, ht, hconsidered, hfits⟩
          rw [hnone t ht hconsidered] at hfits
          cases hfits
    | some t =>
        obtain ⟨hmem, hconsidered, hfits, hchoice⟩ := picked_of_chosen hchosen
        dsimp only
        refine ⟨iff_of_false ?_ habsent, fun _ => ⟨fun _ => ⟨t, ⟨hmem, hconsidered, hfits, hchoice⟩, rfl⟩, ?_⟩, ?_⟩
        · intro hnotFound
          rw [delivered_error (by rw [hnotFound]; simp)] at hnotFound
          cases hnotFound
        · intro h
          rw [h t.1 (List.fst_mem_of_mem_zipIdx hmem) hconsidered] at hfits
          cases hfits
        · intro herror
          rw [delivered_error herror]

end Scan

section Examples

def ethosTarget : Target :=
  { backend := ascii "ethos_u", siliconRef := ascii "alif:ensemble:e7", blobFormat := ascii "vela_tflite" }

def cpuTarget (reqSramKib : UInt32) : Target :=
  { backend := ascii "cpu", siliconRef := ascii "*", blobFormat := ascii "tflite", reqSramKib := reqSramKib }

def package (targets : List Target) (bounded : targets.length ≤ MAX_TARGETS) : Model :=
  { name := [], srcSha := [], flags := 0, targets := targets, bounded := bounded }

def unset : SelectResult := ⟨0, .auto, .tflite, 0, false⟩

-- An NPU that this device lacks, and a CPU target that fits.
theorem select_spec_cpu : ∃ t, Picked {} .auto [ethosTarget, cpuTarget 0] t ∧
    select (package [ethosTarget, cpuTarget 0] (by decide)) {} .auto unset = delivered {} t unset := by
  have hspec := select_spec (package [ethosTarget, cpuTarget 0] (by decide)) {} .auto unset (by simp [package])
  exact (hspec.2.1 (fun h => h.1 rfl)).1 ⟨cpuTarget 0, by simp [package], by decide, by decide⟩

-- A CPU request does not get NOT_FOUND where no target is for the CPU. An NPU that the package
-- names but the device lacks gets NO_FIT where a CPU target is too large.
theorem select_strays :
    ((∀ t ∈ [ethosTarget], backendEnum t.backend ≠ .cpu) ∧
      (select (package [ethosTarget] (by decide)) {} .cpu unset).1 = .error .noBackend) ∧
    ((∀ t ∈ [ethosTarget, cpuTarget 512], considered { arenaSramKib := 256 } .ethosU t = false) ∧
      (select (package [ethosTarget, cpuTarget 512] (by decide)) { arenaSramKib := 256 } .ethosU unset).1 =
        .error .noFit) := by
  decide

end Examples

end AlpSdk.AlpModel
