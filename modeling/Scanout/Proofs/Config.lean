import Scanout.Config
import Scanout.Proofs.Json.Singles

/-!
# Settings in texts

Valid settings load from the text they are saved as, and from every text that holds some of the
saved members, in any order and among foreign ones. The settings that are left out have their
defaults, and those never make the others invalid.
-/

namespace Scanout

open Json

lemma GraphicsApi.ofJson?_toJson (api : GraphicsApi) : ofJson? api.toJson = some api := by
  cases api <;> rfl

lemma ResolutionMode.ofJson?_toJson (mode : ResolutionMode) :
    ofJson? mode.toJson = some mode := by
  cases mode <;> rfl

lemma RefreshRateMode.ofJson?_toJson (mode : RefreshRateMode) :
    ofJson? mode.toJson = some mode := by
  cases mode <;> rfl

namespace Config

variable {c : Config}

/-- Every setting is in range. -/
structure Valid (c : Config) : Prop where
  samples : c.msaaSamples ∈ [1, 2, 4, 8]
  positive : (0 : Single).lt c.resolutionMultiplier = true
  greatest : c.resolutionMultiplier.le 16 = true
  downsample : 1 ≤ c.downsampleMultiplier ∧ c.downsampleMultiplier ≤ 4
  target : c.refreshRate = .manual → 1 ≤ c.refreshRateTarget ∧ c.refreshRateTarget ≤ 1000
  workloadRing : 3 ≤ c.workloadRingSize
  presentRing : 2 ≤ c.presentRingSize

lemma ite_some_eq_none {α : Type} {p : Prop} [Decidable p] {a : α} {o : Option α} :
    (if p then some a else o) = none ↔ ¬ p ∧ o = none := by
  by_cases h : p <;> simp [h]

lemma validate_eq_ok : c.validate = .ok () ↔ c.Valid := by
  have hvalidate : c.validate = .ok () ↔ c.invalid? = none := by
    rw [validate]
    cases c.invalid? <;> simp
  have hmultiplier : (¬ (!((0 : Single).lt c.resolutionMultiplier &&
      c.resolutionMultiplier.le 16)) = true) ↔
        (0 : Single).lt c.resolutionMultiplier = true ∧ c.resolutionMultiplier.le 16 = true := by
    rw [Bool.not_eq_true', Bool.not_eq_false, Bool.and_eq_true]
  rw [hvalidate]
  simp only [invalid?, ite_some_eq_none, hmultiplier, not_and, Classical.not_imp, not_not,
    Nat.not_lt, and_true]
  constructor
  · rintro ⟨hsamples, ⟨hpositive, hgreatest⟩, hdownsample, htarget, hworkload, hpresent⟩
    exact ⟨hsamples, hpositive, hgreatest, hdownsample, htarget, hworkload, hpresent⟩
  · rintro ⟨hsamples, hpositive, hgreatest, hdownsample, htarget, hworkload, hpresent⟩
    exact ⟨hsamples, ⟨hpositive, hgreatest⟩, hdownsample, htarget, hworkload, hpresent⟩

/-- The settings that are kept, and defaults for the others. -/
def keeping (c : Config) (keeps : String → Bool) : Config where
  graphicsApi := if keeps "graphics_api" then c.graphicsApi else default.graphicsApi
  resolution := if keeps "resolution" then c.resolution else default.resolution
  resolutionMultiplier :=
    if keeps "resolution_multiplier" then c.resolutionMultiplier else default.resolutionMultiplier
  downsampleMultiplier :=
    if keeps "downsample_multiplier" then c.downsampleMultiplier else default.downsampleMultiplier
  msaaSamples := if keeps "msaa_samples" then c.msaaSamples else default.msaaSamples
  refreshRate := if keeps "refresh_rate" then c.refreshRate else default.refreshRate
  refreshRateTarget :=
    if keeps "refresh_rate_target" then c.refreshRateTarget else default.refreshRateTarget
  frameInterpolation :=
    if keeps "frame_interpolation" then c.frameInterpolation else default.frameInterpolation
  idleWork := if keeps "idle_work" then c.idleWork else default.idleWork
  skipBuffering := if keeps "skip_buffering" then c.skipBuffering else default.skipBuffering
  workloadRingSize :=
    if keeps "workload_ring_size" then c.workloadRingSize else default.workloadRingSize
  presentRingSize :=
    if keeps "present_ring_size" then c.presentRingSize else default.presentRingSize

/-- A user who has set nothing has what the members of a text stand for where it leaves them out. -/
lemma default_eq :
    default =
      { graphicsApi := none
        resolution := .default
        resolutionMultiplier := defaultMultiplier
        downsampleMultiplier := defaultOne
        msaaSamples := defaultOne
        refreshRate := .default
        refreshRateTarget := defaultRefreshTarget
        frameInterpolation := defaultOn
        idleWork := defaultOn
        skipBuffering := defaultOn
        workloadRingSize := defaultRingSize
        presentRingSize := defaultRingSize } :=
  rfl

lemma ite_of {α : Type} {P : α → Prop} {k : Bool} {a b : α} (ha : P a) (hb : P b) :
    P (if k = true then a else b) := by
  cases k
  · exact hb
  · exact ha

/-- The defaults are in range, whatever settings they stand beside. -/
lemma Valid.keeping (h : c.Valid) (keeps : String → Bool) : (c.keeping keeps).Valid where
  samples := ite_of (P := (· ∈ [1, 2, 4, 8])) h.samples (by decide)
  positive := ite_of (P := fun x => (0 : Single).lt x = true) h.positive (by decide)
  greatest := ite_of (P := fun x : Single => x.le 16 = true) h.greatest (by decide)
  downsample := ite_of (P := fun n => 1 ≤ n ∧ n ≤ 4) h.downsample (by decide)
  target hmanual := by
    -- the default mode asks for no rate
    have hmode : keeps "refresh_rate" = true ∧ c.refreshRate = .manual := by
      cases hkeeps : keeps "refresh_rate" with
      | true => simpa [Config.keeping, hkeeps] using hmanual
      | false => simp [Config.keeping, hkeeps, default, RefreshRateMode.default] at hmanual
    exact ite_of (P := fun n => 1 ≤ n ∧ n ≤ 1000) (h.target hmode.2) (by decide)
  workloadRing := ite_of (P := (3 ≤ ·)) h.workloadRing (by decide)
  presentRing := ite_of (P := (2 ≤ ·)) h.presentRing (by decide)

/-- The multiplier is a number: it lies between two numbers. -/
lemma Valid.isFinite (h : c.Valid) : c.resolutionMultiplier.isFinite = true := by
  have hzero : (0 : Single).value = .finite false 0 (-149) := by decide
  have hsixteen : (16 : Single).value = .finite false 8388608 (-19) := by decide
  have hpositive := h.positive
  have hgreatest := h.greatest
  simp only [Single.lt, Single.le, Single.beq, Single.isFinite, hzero, hsixteen]
    at hpositive hgreatest ⊢
  cases hvalue : c.resolutionMultiplier.value with
  | nan => simp [hvalue, Binary.Value.lt] at hpositive
  | infinite negative =>
    cases negative <;> simp [hvalue, Binary.Value.lt, Binary.Value.beq] at hpositive hgreatest
  | finite negative m e => rfl

/-- The settings that are not bounded fit the words that hold them. -/
def InWords (c : Config) : Prop :=
  c.refreshRateTarget < 2 ^ 32 ∧ c.workloadRingSize < 2 ^ 64 ∧ c.presentRingSize < 2 ^ 64

instance : DecidablePred InWords := fun _ => inferInstanceAs (Decidable (_ ∧ _))

section Texts

/-- The values of the settings as they are saved. -/
def values (c : Config) : List Json :=
  [Json.ofNullable GraphicsApi.toJson c.graphicsApi, c.resolution.toJson,
    .ofSingle c.resolutionMultiplier, .ofNat c.downsampleMultiplier, .ofNat c.msaaSamples,
    c.refreshRate.toJson, .ofNat c.refreshRateTarget, .bool c.frameInterpolation,
    .bool c.idleWork, .bool c.skipBuffering, .ofNat c.workloadRingSize, .ofNat c.presentRingSize]

lemma writable_toJson (h : c.resolutionMultiplier.ReadsBack) : c.toJson.Writable := by
  refine .zip ?_
  simp only [List.forall_mem_cons]
  exact ⟨.ofNullable fun _ _ => .string _, .string _, Single.writable_ofSingle fun _ => h, .ofNat,
    .ofNat, .string _, .ofNat, .bool _, .bool _, .bool _, .ofNat, .ofNat, List.forall_mem_nil _⟩

variable {keeps : String → Bool} {foreign members : List (Literal × Json)}

/-- The settings are read from members that hold some of the saved ones in any order, and foreign
ones. -/
lemma ofJson?_of_perm (hvalid : c.Valid) (hwords : c.InWords)
    (hreads : c.resolutionMultiplier.ReadsBack)
    (hforeign : ∀ m ∈ foreign, ∃ name, m.1 = some name ∧ name ∉ fieldNames)
    (hperm : members.Perm ((named fieldNames c.values).filter (·.1.any keeps) ++ foreign)) :
    ofJson? (.object members) = some (c.keeping keeps) := by
  obtain ⟨htarget, hworkload, hpresent⟩ := hwords
  have hsamples : c.msaaSamples < 2 ^ 32 := by
    have hall : ∀ n ∈ [1, 2, 4, 8], n < 2 ^ 32 := by decide
    exact hall _ hvalid.samples
  have hdownsample : c.downsampleMultiplier < 2 ^ 32 := by
    have := hvalid.downsample
    omega
  have hsingle : (Json.ofSingle c.resolutionMultiplier).single? = some c.resolutionMultiplier := by
    rw [Single.single?_ofSingle fun _ => hreads, Single.whenFinite, if_pos]
    simpa using hvalid.isFinite
  have hget : ∀ {α : Type} (i : Nat) (name : String) (value : Json) (x d : α)
      (read : Json → Option α) (next : α → Option Config), fieldNames[i]? = some name →
        c.values[i]? = some value → read value = some x →
        ((⟨false, kept keeps fieldNames c.values⟩ : Record).withDefault i d read >>= next) =
          next (if keeps name = true then x else d) := by
    intro α i name value x d read next hname hvalue hread
    rw [Record.withDefault_kept hname hvalue hread]
    rfl
  rw [ofJson?, record?_of_perm keeps (by decide) rfl hforeign hperm, Option.bind_eq_bind,
    Option.bind_some,
    hget 0 _ _ _ _ _ _ rfl rfl (nullable?_ofNullable (fun api _ => GraphicsApi.ofJson?_toJson api)
      fun _ h => by cases h),
    hget 1 _ _ _ _ _ _ rfl rfl (ResolutionMode.ofJson?_toJson _),
    hget 2 _ _ _ _ _ _ rfl rfl hsingle,
    hget 3 _ _ _ _ _ _ rfl rfl (word32?_ofNat hdownsample),
    hget 4 _ _ _ _ _ _ rfl rfl (word32?_ofNat hsamples),
    hget 5 _ _ _ _ _ _ rfl rfl (RefreshRateMode.ofJson?_toJson _),
    hget 6 _ _ _ _ _ _ rfl rfl (word32?_ofNat htarget), hget 7 _ _ _ _ bool? _ rfl rfl rfl,
    hget 8 _ _ _ _ bool? _ rfl rfl rfl, hget 9 _ _ _ _ bool? _ rfl rfl rfl,
    hget 10 _ _ _ _ _ _ rfl rfl (word64?_ofNat hworkload),
    hget 11 _ _ _ _ _ _ rfl rfl (word64?_ofNat hpresent)]
  rw [keeping, default_eq]
  rfl

/-- A text of foreign members gives the settings of a user who has set nothing. -/
lemma ofJson?_of_foreign
    (hforeign : ∀ m ∈ foreign, ∃ name, m.1 = some name ∧ name ∉ fieldNames) :
    ofJson? (.object foreign) = some default := by
  have hvalid : default.Valid := validate_eq_ok.mp (by decide +kernel)
  have hperm : foreign.Perm
      ((named fieldNames default.values).filter (·.1.any fun _ => false) ++ foreign) :=
    .of_eq rfl
  exact ofJson?_of_perm hvalid (by decide) (by decide +kernel) hforeign hperm

lemma load_eq_ok {s : String} (htext : ofText? s = some c) (hvalid : c.Valid) :
    load (some s) = .ok c := by
  simp only [load, htext, validate_eq_ok.mpr hvalid]
  rfl

/-- Valid settings load from the text they are saved as, which holds a member for each of them. From
any text that holds some of these members, in any order and among foreign ones, the settings load
with their defaults for those that are left out. -/
theorem saved_text_loads (hvalid : c.validate = .ok ()) (hwords : c.InWords)
    (hreads : c.resolutionMultiplier.ReadsBack) :
    load (some c.text) = .ok c ∧
    ∃ own, parse? c.text = some (.object own) ∧ own.map (·.1) = fieldNames.map some ∧
      ∀ (keeps : String → Bool) (foreign members : List (Literal × Json)) (s : String),
        (∀ m ∈ foreign, ∃ name, m.1 = some name ∧ name ∉ fieldNames) →
        members.Perm (own.filter (·.1.any keeps) ++ foreign) →
        parse? s = some (.object members) →
          ofText? s = some (c.keeping keeps) ∧ load (some s) = .ok (c.keeping keeps) := by
  have hvalid := validate_eq_ok.mp hvalid
  have hparse : parse? c.text = some (.object (named fieldNames c.values)) :=
    (writable_toJson hreads).parse?_pretty
  have hkeeping : ∀ (keeps : String → Bool) (foreign members : List (Literal × Json)) (s : String),
      (∀ m ∈ foreign, ∃ name, m.1 = some name ∧ name ∉ fieldNames) →
      members.Perm ((named fieldNames c.values).filter (·.1.any keeps) ++ foreign) →
      parse? s = some (.object members) →
        ofText? s = some (c.keeping keeps) ∧ load (some s) = .ok (c.keeping keeps) := by
    intro keeps foreign members s hforeign hperm hs
    have htext : ofText? s = some (c.keeping keeps) := by
      rw [ofText?, hs]
      exact ofJson?_of_perm hvalid hwords hreads hforeign hperm
    exact ⟨htext, load_eq_ok htext (hvalid.keeping keeps)⟩
  have hall : (named fieldNames c.values).filter (·.1.any fun _ => true) ++ [] =
      named fieldNames c.values := rfl
  refine ⟨?_, _, hparse, rfl, hkeeping⟩
  exact (hkeeping (fun _ => true) [] _ _ (List.forall_mem_nil _) (.of_eq hall.symm) hparse).2

/-- Settings of a player with a fast display. -/
def fast : Config :=
  { default with
    graphicsApi := some .vulkan
    resolutionMultiplier := .ofQuotient 3 2
    msaaSamples := 8
    refreshRate := .manual
    refreshRateTarget := 144
    presentRingSize := 2 ^ 64 - 1 }

/-- A member that is no setting. Its numeral is beyond every number. -/
def theme : Literal × Json :=
  (some "theme", .array [.number ⟨false, ['1'], [], some (false, ['9', '9', '9'])⟩, .object []])

/-- Two of these settings, the last first, behind a foreign member. -/
def fastText : String :=
  "\x7b\"theme\": [1e999, \x7b\x7d],\n\"refresh_rate\":\"Manual\",\t\"msaa_samples\" :8\x7d"

/-- The rate of the display is left out, so that it has its default. -/
theorem fast_text_loads :
    load (some fast.text) = .ok fast ∧
    load (some fastText) = .ok { default with msaaSamples := 8, refreshRate := .manual } := by
  have hreads : fast.resolutionMultiplier.ReadsBack := by decide +kernel
  obtain ⟨hload, own, hown, -, hkeeping⟩ :=
    saved_text_loads (c := fast) (by decide +kernel) (by decide) hreads
  have hnamed : own = named fieldNames fast.values := by
    have hparse : parse? fast.text = some (.object (named fieldNames fast.values)) :=
      (writable_toJson hreads).parse?_pretty
    exact Json.object.inj (Option.some.inj (hown.symm.trans hparse))
  have hforeign : ∀ m ∈ [theme], ∃ name, m.1 = some name ∧ name ∉ fieldNames :=
    List.forall_mem_singleton.mpr ⟨"theme", rfl, by decide⟩
  have hkept : own.filter (·.1.any ["msaa_samples", "refresh_rate"].contains) =
      [(some "msaa_samples", .ofNat 8), (some "refresh_rate", .ofString "Manual")] := by
    rw [hnamed]
    rfl
  have hparse : parse? fastText =
      some (.object ([theme] ++ (own.filter
        (·.1.any ["msaa_samples", "refresh_rate"].contains)).reverse)) := by
    rw [hkept]
    simp only [parse?, fastText, String.reduceToList]
    rfl
  exact ⟨hload, (hkeeping _ [theme] _ fastText hforeign
    (List.perm_append_comm.trans ((List.reverse_perm _).append_right [theme])) hparse).2⟩

end Texts

end Config

end Scanout
