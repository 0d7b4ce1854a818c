import Bindings.Proofs.Generation.Ends
import Bindings.Proofs.Target.Parts

/-!
# Guarded handles

What is known of a handle that a release function backs.
-/

namespace Bindings
open Bindings.Metadata

variable {env : Environment} {s : State}

/-! ## The type of a handle -/

/-- A type has function pointers nowhere. -/
def TargetType.Callless (type : TargetType) : Prop :=
  ∀ params returns, ¬ Within (.functionPointer params returns) type

/-- The type that a handle is written with has no function pointers. -/
theorem handleTarget_leads (type : NativeType) :
    Gen.Leads env s (handleTarget type) (fun target _ => target.Callless) fun _ => True := by
  induction type using handleTarget.induct generalizing s with
  | case1 code name found =>
    unfold handleTarget
    rw [found]
    exact .pure nofun
  | case2 code missing =>
    unfold handleTarget
    rw [missing]
    trivial
  | case3 element isConst ih =>
    unfold handleTarget
    refine .bind ih fun target t callless => .pure fun params returns inner => ?_
    cases inner with
    | pointer inner => exact callless params returns inner
  | case4 reference => exact .pure nofun
  | case5 type primitive pointer handle =>
    rw [handleTarget]
    · trivial
    · exact primitive
    · exact pointer
    · exact handle

/-! ## Release functions -/

/-- A handle is named for the function that releases it. -/
structure GuardedHandle.Owned (handle : GuardedHandle) (release : Function) : Prop where
  name : handle.name = release.name ++ "SafeHandle"
  space : handle.space = release.space
  releaseFunction : handle.releaseFunction = release.name
  releaseSpace : handle.releaseSpace = release.space

/-- A handle belongs to the function that its release function is found to be. -/
def GuardedHandle.Releases (env : Environment) (handle : GuardedHandle) : Prop :=
  ∃ name release, select (·.architectures) (env.index.findFunctions name)
    env.options.platformName? name = .ok release ∧ handle.Owned release

theorem handleOfRelease_leads (release : Function) :
    Gen.Leads env s (handleOfRelease release) (fun found _ => ∀ handle, found = some handle →
      handle.Owned release ∧ handle.fieldType.Callless) fun _ => True := by
  unfold handleOfRelease
  split
  · dsimp only
    -- the same is made of the definition, wherever it comes from
    split
    all_goals
      refine .bind .any fun definition t _ => ?_
      split
      · refine .bind (handleTarget_leads _) fun target u callless =>
          .bind .any fun check v _ => .pure ?_
        rintro handle ⟨⟩
        exact ⟨⟨rfl, rfl, rfl, rfl⟩, callless⟩
      · exact .pure nofun
  · exact .pure nofun

/-- A handle that is built is made for the function that is found by the name. -/
theorem buildHandle_ok {name : String} {handle : GuardedHandle} {t : State}
    (built : buildHandle name env s = .ok (some handle) t) :
    ∃ release, select (·.architectures) (env.index.findFunctions name) env.options.platformName? name =
      .ok release ∧ handleOfRelease release env s = .ok (some handle) t := by
  unfold buildHandle at built
  rw [Gen.read_bind] at built
  cases found : env.index.findFunctions name with
  | nil =>
    rw [found] at built
    cases built
  | cons f variants =>
    rw [found] at built
    dsimp only at built
    rw [Gen.platform_bind] at built
    cases chosen : select (·.architectures) (f :: variants) env.options.platformName? name with
    | ok release =>
      rw [chosen] at built
      exact ⟨release, rfl, built⟩
    | error e =>
      rw [chosen] at built
      cases e <;> cases built

/-- A handle that is built belongs to the function that is found by the name. -/
theorem buildHandle_leads (name : String) :
    Gen.Leads env s (buildHandle name) (fun found _ => ∀ handle, found = some handle →
      handle.Releases env ∧ handle.fieldType.Callless) fun _ => True := by
  unfold Gen.Leads
  cases built : buildHandle name env s with
  | error e t => trivial
  | ok found t =>
    rintro handle rfl
    obtain ⟨release, chosen, made⟩ := buildHandle_ok built
    have leads : Gen.Leads env s (handleOfRelease release) _ _ := handleOfRelease_leads release
    rw [Gen.Leads, made] at leads
    obtain ⟨owned, callless⟩ := leads handle rfl
    exact ⟨⟨name, release, chosen, owned⟩, callless⟩

end Bindings
