import AuraCall.AccountMirror.StoreReaders

/-!
# Status entries

The entries of the status registry, one of each target: whether it can be refreshed, what is known of its mirror, the
provider guard, and the live follow that is configured.
-/

namespace AuraCall.AccountMirror

inductive EntryStatus | eligible | delayed | blocked
  deriving DecidableEq

inductive CompletenessState | none | complete | inProgress | unknown
  deriving DecidableEq

structure MirrorCompleteness where
  state : CompletenessState
  /-- `remainingDetailSurfaces?.total` -/
  remainingTotal : Option Int

inductive GuardState | clear | manualClearRequired | cooldown
  deriving DecidableEq

structure EntryGuard where
  state : GuardState := .clear
  summary : Option String := none

inductive LiveFollowState | enabled | disabled | unconfigured | missingIdentity | unsupported
  deriving DecidableEq

structure LiveFollowDesiredState where
  state : LiveFollowState
  reason : String
  sweepMode : Option SweepMode := none
  materializationPolicy : Option MaterializationPolicy := none
  materializationAssetKinds : Option (List AssetKind) := none
  materializationMaxItems : Option Nat := none
  materializationRefreshSnapshot : Option Bool := none
  materializationForce : Option Bool := none

structure StatusEntry where
  provider : Provider
  runtimeProfileId : String
  browserProfileId : Option String
  status : EntryStatus
  reason : String
  eligibleAt : Option String
  providerGuard : EntryGuard := {}
  mirrorCompleteness : MirrorCompleteness
  liveFollow : LiveFollowDesiredState

end AuraCall.AccountMirror
