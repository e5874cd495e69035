import SweetHome.Geometry
import SweetHome.Lib.Binary32

/-!
# The effective aspect ratio

Two functions resolve it: the environment tries what the core has set last, by its sign, and the view falls
back on the ratio of the load, which is replaced by the quotient of the base sizes only where it is negative.
The interface asks for the quotient at zero too.
-/

namespace SweetHome
namespace AspectRatio
open Step Sessions SweetHome.Geometry Binary32

/-- The sizes are `unsigned`. -/
def Unsigned (geometry : RetroGameGeometry) : Prop :=
  geometry.baseWidth < 2 ^ 32 ∧ geometry.baseHeight < 2 ^ 32

/-- The geometry of `retro_system_av_info`. -/
structure AvInfo where
  geometry : RetroGameGeometry
  unsigned : Unsigned geometry
  width_pos : 0 < geometry.baseWidth
  height_pos : 0 < geometry.baseHeight

/-- A geometry that gives a ratio of its own. -/
def Resolves (geometry : RetroGameGeometry) : Prop :=
  positive geometry.aspectRatio = true ∨ 0 < geometry.baseWidth ∧ 0 < geometry.baseHeight

/-- The float is neither a zero nor NaN. -/
def Signed (x : FloatBits) : Prop := positive x = true ∨ negative x = true

instance (x : FloatBits) : Decidable (Signed x) := inferInstanceAs (Decidable (_ ∨ _))

instance (geometry : RetroGameGeometry) : Decidable (Resolves geometry) := inferInstanceAs (Decidable (_ ∨ _))

/-! ### What the interface asks for -/

/-- The ratio that is assumed where none is positive. -/
def assumed (geometry : RetroGameGeometry) : FloatBits :=
  if positive geometry.aspectRatio then geometry.aspectRatio
  else divide geometry.baseWidth geometry.baseHeight

/-- From the geometry of the load and the one that was set last. -/
def effective (avInfo : AvInfo) : Option RetroGameGeometry → FloatBits
  | none => assumed avInfo.geometry
  | some geometry =>
    if positive geometry.aspectRatio then geometry.aspectRatio
    else if 0 < geometry.baseWidth ∧ 0 < geometry.baseHeight then
      divide geometry.baseWidth geometry.baseHeight
    else assumed avInfo.geometry

/-- A view of a core that has told `told`. -/
structure Follows (v : View) (avInfo : AvInfo) (told : List Told) : Prop where
  positive : positive (v.getAspectRatio divide) = true
  effective : v.getAspectRatio divide = effective avInfo (lastWrite Told.geometry? told)

/-! ### Signs -/

theorem positive_divide {geometry : RetroGameGeometry} (hunsigned : Unsigned geometry)
    (hwidth : 0 < geometry.baseWidth) (hheight : 0 < geometry.baseHeight) :
    positive (divide geometry.baseWidth geometry.baseHeight) = true := by
  obtain ⟨hpos, hle⟩ := divide_bounds hwidth hunsigned.1 hheight hunsigned.2
  simp only [Geometry.positive, Bool.and_eq_true, decide_eq_true_eq]
  exact ⟨hpos, hle⟩

theorem positive_assumed {geometry : RetroGameGeometry} (hunsigned : Unsigned geometry)
    (h : Resolves geometry) : positive (assumed geometry) = true := by
  unfold assumed
  split
  · assumption
  · rename_i hratio
    obtain ⟨hwidth, hheight⟩ := h.resolve_left hratio
    exact positive_divide hunsigned hwidth hheight

theorem not_negative_of_positive {x : FloatBits} (h : positive x = true) : negative x = false := by
  simp only [Geometry.positive, Bool.and_eq_true, decide_eq_true_eq] at h
  simp only [negative, Bool.and_eq_false_iff, decide_eq_false_iff_not]
  left
  obtain ⟨-, hle⟩ := h
  rw [UInt32.le_iff_toNat_le] at hle
  rw [UInt32.lt_iff_toNat_lt]
  have hmax : (0x7F800000 : UInt32).toNat = 0x7F800000 := rfl
  have hmin : (0x80000000 : UInt32).toNat = 0x80000000 := rfl
  omega

/-- The ratio of the load is the one that is assumed, but for zeros and NaN, which are kept. -/
theorem findDefaultAspectRatio_eq (geometry : RetroGameGeometry) :
    findDefaultAspectRatio divide geometry =
      if Signed geometry.aspectRatio then assumed geometry else geometry.aspectRatio := by
  unfold findDefaultAspectRatio assumed Signed
  by_cases hpositive : positive geometry.aspectRatio = true
  · simp [hpositive, not_negative_of_positive hpositive]
  · simp [hpositive]

/-- The environment's answer to a geometry; `-1` where it gives no ratio. -/
theorem retrieveGameSpecificAspectRatio_eq {e : Environment} {geometry : RetroGameGeometry}
    (h : e.geometry.2 = (geometry.baseWidth, geometry.baseHeight, geometry.aspectRatio)) :
    retrieveGameSpecificAspectRatio divide e = if Resolves geometry then assumed geometry else 0xBF800000 := by
  obtain ⟨hwidth, hheight, hratio⟩ : _ ∧ _ ∧ _ := by
    simpa only [Environment.geometry, Prod.mk.injEq] using h
  unfold retrieveGameSpecificAspectRatio assumed Resolves
  rw [hwidth, hheight, hratio]
  by_cases hpositive : positive geometry.aspectRatio = true <;> simp [hpositive]

theorem effective_some (avInfo : AvInfo) (geometry : RetroGameGeometry) : effective avInfo (some geometry) =
    if Resolves geometry then assumed geometry else assumed avInfo.geometry := by
  unfold effective assumed Resolves
  by_cases hpositive : positive geometry.aspectRatio = true <;> simp [hpositive]

/-! ### What a view resolves -/

/-- What the environment holds of a geometry before any is set. -/
def unset : RetroGameGeometry := ⟨0, 0, 0xBF800000⟩

/-- The view has loaded a game, and its environment holds what was set last. -/
structure Holds (v : View) (avInfo : AvInfo) (last : Option RetroGameGeometry) : Prop where
  ratio : v.defaultAspectRatio = findDefaultAspectRatio divide avInfo.geometry
  geometry : v.process.environment.geometry.2 =
    ((last.getD unset).baseWidth, (last.getD unset).baseHeight, (last.getD unset).aspectRatio)

variable {v : View} {avInfo : AvInfo} {last : Option RetroGameGeometry}

theorem getAspectRatio_of_resolves {geometry : RetroGameGeometry} (hv : Holds v avInfo (some geometry))
    (hunsigned : Unsigned geometry) (h : Resolves geometry) : v.getAspectRatio divide = assumed geometry := by
  unfold View.getAspectRatio
  rw [retrieveGameSpecificAspectRatio_eq hv.geometry, Option.getD_some, if_pos h,
    if_pos (positive_assumed hunsigned h)]

theorem getAspectRatio_of_not_resolves (hv : Holds v avInfo last) (h : ¬ Resolves (last.getD unset)) :
    v.getAspectRatio divide = findDefaultAspectRatio divide avInfo.geometry := by
  unfold View.getAspectRatio
  rw [retrieveGameSpecificAspectRatio_eq hv.geometry, if_neg h, hv.ratio]
  exact if_neg (by decide)

theorem not_resolves_unset : ¬ Resolves unset := by decide

/-- A view that holds what was set last follows the interface, unless the ratio of the load is a zero or NaN
and is fallen back on. -/
theorem Holds.ratio_eq_iff (hv : Holds v avInfo last)
    (hunsigned : ∀ geometry, last = some geometry → Unsigned geometry) :
    (positive (v.getAspectRatio divide) = true ∧ v.getAspectRatio divide = effective avInfo last) ↔
      Resolves (last.getD unset) ∨ Signed avInfo.geometry.aspectRatio := by
  by_cases hresolves : Resolves (last.getD unset)
  · rcases last with _ | geometry
    · exact absurd hresolves not_resolves_unset
    · rw [Option.getD_some] at hresolves ⊢
      have hratio := getAspectRatio_of_resolves hv (hunsigned geometry rfl) hresolves
      rw [hratio, effective_some, if_pos hresolves]
      exact iff_of_true ⟨positive_assumed (hunsigned geometry rfl) hresolves, rfl⟩ (.inl hresolves)
  · have heffective : effective avInfo last = assumed avInfo.geometry := by
      rcases last with _ | geometry
      · rfl
      · rw [effective_some, if_neg (by rwa [Option.getD_some] at hresolves)]
    rw [getAspectRatio_of_not_resolves hv hresolves, heffective, findDefaultAspectRatio_eq]
    by_cases hsigned : Signed avInfo.geometry.aspectRatio
    · rw [if_pos hsigned]
      have hresolved : Resolves avInfo.geometry := .inr ⟨avInfo.width_pos, avInfo.height_pos⟩
      exact iff_of_true ⟨positive_assumed avInfo.unsigned hresolved, rfl⟩ (.inr hsigned)
    · rw [if_neg hsigned]
      refine iff_of_false ?_ (not_or.2 ⟨hresolves, hsigned⟩)
      rintro ⟨hpositive, -⟩
      exact hsigned (.inl hpositive)

/-! ### Runs of the view -/

/-- The members of the environment that a geometry is stored in. -/
def stored (geometry : RetroGameGeometry) : Nat × Nat × FloatBits :=
  (geometry.baseWidth, geometry.baseHeight, geometry.aspectRatio)

variable {w : View} {h es : List Told} {m : Move}

theorem accesses_stored (e : Environment) (as : List Access) :
    (e.accesses as).1.geometry.2 = ((lastWrite Access.geometry? as).map stored).getD e.geometry.2 := by
  rw [e.accesses_geometry_eq as]
  cases lastWrite Access.geometry? as <;> rfl

theorem move_stored (hv : Geometry.Inv divide v h) (hstep : Geometry.step divide v m = some (w, es)) :
    w.process.environment.geometry.2 =
      ((lastWrite Told.geometry? es).map stored).getD v.process.environment.geometry.2 := by
  cases m with
  | loadGame retroLoadGame avInfo =>
    simp only [Geometry.step] at hstep
    split at hstep
    · cases hstep
    · obtain ⟨rfl, rfl⟩ := Prod.mk.inj (Option.some.inj hstep)
      rw [lastWrite_geometry_told]
      exact accesses_stored _ retroLoadGame
  | onSurfaceCreated baseWidth baseHeight contextReset =>
    simp only [Geometry.step] at hstep
    split at hstep
    · obtain ⟨rfl, rfl⟩ := Prod.mk.inj (Option.some.inj hstep)
      have hnone : lastWrite Told.geometry? [.baseSize baseWidth baseHeight] = none := rfl
      rw [← List.singleton_append, lastWrite_append, lastWrite_geometry_told, hnone, Option.orElse_eq_orElse,
        Option.orElse_eq_or, Option.or_none]
      exact accesses_stored _ contextReset
    · cases hstep
  | resume =>
    simp only [Geometry.step] at hstep
    split at hstep
    · obtain ⟨rfl, rfl⟩ := Prod.mk.inj (Option.some.inj hstep); rfl
    · cases hstep
  | step retroRun =>
    obtain ⟨-, ⟨video, hvideo⟩, hprocess, -, rfl⟩ := hv.step_process hstep
    obtain ⟨henvironment, -⟩ := step_video hvideo retroRun
    rw [hprocess, henvironment, lastWrite_geometry_told]
    exact accesses_stored _ retroRun
  | access a =>
    obtain ⟨rfl, rfl⟩ := Prod.mk.inj (Option.some.inj hstep)
    exact accesses_stored _ [a]
  | pause | setViewport | setShaderConfig =>
    obtain ⟨rfl, rfl⟩ := Prod.mk.inj (Option.some.inj hstep); rfl

theorem moves_stored (hv : Geometry.Inv divide v h) (ms : List Move) :
    (run (Geometry.step divide) v ms).1.process.environment.geometry.2 =
      ((lastWrite Told.geometry? (run (Geometry.step divide) v ms).2).map stored).getD
        v.process.environment.geometry.2 := by
  induction ms generalizing v h with
  | nil => rfl
  | cons m ms ih =>
    rcases hstep : Geometry.step divide v m with _ | ⟨w, es⟩
    · rw [run_cons_none hstep]; rfl
    · rw [run_cons_some hstep]
      dsimp only
      rw [ih (hv.move hstep), move_stored hv hstep, ← lastWrite_map, ← lastWrite_map, ← lastWrite_map,
        ← lastWrite_append_getD]

theorem move_loaded (hloaded : v.isGameLoaded = true) (hstep : Geometry.step divide v m = some (w, es)) :
    w.isGameLoaded = true ∧ w.defaultAspectRatio = v.defaultAspectRatio := by
  cases m with
  | loadGame retroLoadGame avInfo => simp [Geometry.step, hloaded] at hstep
  | onSurfaceCreated | resume =>
    simp only [Geometry.step] at hstep
    split at hstep
    · obtain ⟨rfl, -⟩ := Prod.mk.inj (Option.some.inj hstep); exact ⟨hloaded, rfl⟩
    · cases hstep
  | step retroRun =>
    simp only [Geometry.step] at hstep
    split at hstep
    · obtain ⟨rfl, -⟩ := Prod.mk.inj (Option.some.inj hstep)
      split <;> exact ⟨hloaded, rfl⟩
    · cases hstep
  | pause | access | setViewport | setShaderConfig =>
    obtain ⟨rfl, -⟩ := Prod.mk.inj (Option.some.inj hstep); exact ⟨hloaded, rfl⟩

theorem moves_loaded (hloaded : v.isGameLoaded = true) (ms : List Move) :
    (run (Geometry.step divide) v ms).1.defaultAspectRatio = v.defaultAspectRatio := by
  refine (run_inv (I := fun w : View => w.isGameLoaded = true ∧ w.defaultAspectRatio = v.defaultAspectRatio) ?_
    ⟨hloaded, rfl⟩ ms).2
  rintro w m u es ⟨hw, hratio⟩ hstep
  obtain ⟨hu, hratio'⟩ := move_loaded hw hstep
  exact ⟨hu, hratio'.trans hratio⟩

theorem created_stored {s : Start} (hs : (({} : Process).onCreate s).2.2 = none) :
    (created s).process.environment.geometry.2 =
      ((lastWrite Access.geometry? s.accesses).map stored).getD (stored unset) := by
  rw [created, Process.onCreate_none _ hs]
  refine (accesses_stored _ s.accesses).trans ?_
  rw [Process.beginCreate_environment]
  rfl

/-- What a view holds after its load and whatever comes then. -/
theorem holds_run {s : Start} (hs : (({} : Process).onCreate s).2.2 = none) {before after : List Move}
    {retroLoadGame : List Access} {u : View} {loaded : List Told}
    (hbefore : run (Geometry.step divide) (created s) before = (v, h))
    (hload : Geometry.step divide v (.loadGame retroLoadGame avInfo.geometry) = some (w, loaded))
    (hafter : run (Geometry.step divide) w after = (u, es)) :
    Holds u avInfo (lastWrite Told.geometry? (s.accesses.map .access ++ h ++ loaded ++ es)) := by
  have hcreated := created_inv divide hs
  have hv : Geometry.Inv divide v (s.accesses.map .access ++ h) := by
    have hmoves := hcreated.moves before
    rwa [hbefore] at hmoves
  have hw := hv.move hload
  have hvstored := moves_stored hcreated before
  have hwstored := move_stored hv hload
  have hustored := moves_stored hw after
  rw [hbefore, created_stored hs] at hvstored
  rw [hafter] at hustored
  have hloaded : w.isGameLoaded = true ∧ w.defaultAspectRatio = findDefaultAspectRatio divide avInfo.geometry := by
    simp only [Geometry.step] at hload
    split at hload
    · cases hload
    · obtain ⟨rfl, -⟩ := Prod.mk.inj (Option.some.inj hload)
      exact ⟨rfl, rfl⟩
  have hratio := moves_loaded hloaded.1 after
  rw [hafter] at hratio
  refine ⟨hratio.trans hloaded.2, ?_⟩
  change _ = stored _
  rw [hustored, hwstored, hvstored, ← lastWrite_geometry_told, ← lastWrite_map, ← lastWrite_map, ← lastWrite_map,
    ← lastWrite_map, ← lastWrite_append_getD, ← lastWrite_append_getD, ← lastWrite_append_getD, lastWrite_map,
    Option.getD_map, List.append_assoc, List.append_assoc]

/-- After its load and whatever comes then, a view follows the interface exactly when the geometry that was set
last gives a ratio, or that of the load is neither a zero nor NaN. -/
theorem aspectRatio_follows_iff (s : Start) (hs : (({} : Process).onCreate s).2.2 = none) (before after : List Move)
    (retroLoadGame : List Access) (avInfo : AvInfo) (v w u : View) (h loaded es : List Told)
    (hbefore : run (Geometry.step divide) (created s) before = (v, h))
    (hload : Geometry.step divide v (.loadGame retroLoadGame avInfo.geometry) = some (w, loaded))
    (hafter : run (Geometry.step divide) w after = (u, es))
    (hunsigned : ∀ geometry, lastWrite Told.geometry? (s.accesses.map .access ++ h ++ loaded ++ es) = some geometry →
      Unsigned geometry) :
    Follows u avInfo (s.accesses.map .access ++ h ++ loaded ++ es) ↔
      (∃ geometry, lastWrite Told.geometry? (s.accesses.map .access ++ h ++ loaded ++ es) = some geometry ∧
        Resolves geometry) ∨ Signed avInfo.geometry.aspectRatio := by
  have hiff := (holds_run hs hbefore hload hafter).ratio_eq_iff hunsigned
  have hresolves : ∀ last : Option RetroGameGeometry,
      Resolves (last.getD unset) ↔ ∃ geometry, last = some geometry ∧ Resolves geometry := by
    rintro (_ | geometry)
    · exact iff_of_false not_resolves_unset (by simp)
    · simp
  rw [← hresolves, ← hiff]
  exact ⟨fun hu => ⟨hu.positive, hu.effective⟩, fun hu => ⟨hu.1, hu.2⟩⟩

/-- A core of 320 by 240, with a ratio by its bits. -/
def standard (aspectRatio : FloatBits) : AvInfo where
  geometry := ⟨320, 240, aspectRatio⟩
  unsigned := ⟨by norm_num, by norm_num⟩
  width_pos := by norm_num
  height_pos := by norm_num

/-- The view after a load that sets nothing. -/
def loadedView (aspectRatio : FloatBits) : View :=
  (run (Geometry.step divide) (created hardwareStart) [.loadGame [] (standard aspectRatio).geometry]).1

/-- The core loads with a negative ratio and sets another shape when it runs. -/
theorem aspectRatio_follows_iff_wide :
    Follows
      (run (Geometry.step divide) (loadedView 0xBF800000)
        [.access (.callbackEnvironment (.setGeometry ⟨640, 240, 0⟩))]).1 (standard 0xBF800000)
      (hardwareStart.accesses.map .access ++ [] ++ [] ++
        [.access (.callbackEnvironment (.setGeometry ⟨640, 240, 0⟩))]) := by
  refine (aspectRatio_follows_iff hardwareStart rfl [] [.access (.callbackEnvironment (.setGeometry ⟨640, 240, 0⟩))] []
    (standard 0xBF800000) (created hardwareStart) (loadedView 0xBF800000) _ [] [] _ rfl rfl rfl ?_).2 ?_
  · rintro geometry ⟨⟩
    exact ⟨by decide, by decide⟩
  · exact .inr (.inr rfl)

/-- The interface assumes 4:3 for a core of 320 by 240 whose ratio is zero; the view keeps the zero. -/
theorem not_follows_zero :
    ¬ Follows (loadedView 0) (standard 0) (hardwareStart.accesses.map .access ++ [] ++ [] ++ []) := by
  intro hfollows
  have hpositive := hfollows.positive
  revert hpositive
  decide

end AspectRatio
end SweetHome
