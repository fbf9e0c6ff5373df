import Mathlib.Data.List.MinMax
import FerrumGate.Pdp.Bundles
import FerrumGate.Store.Op

/-!
# Policy bundles in the store

`ferrum-store/src/{sqlite,postgres}/policy_bundles.rs`: the table of the bundles, the table of their
versions, and the routines over them. Every routine is several statements, each of which is atomic
on its own; there is no transaction around them.
-/

namespace FerrumGate.PolicyBundles

open Interleave

/-! ## Tables -/

/-- `PolicyBundle` with the fields that a decision does not read. -/
structure PolicyBundleRecord extends PolicyBundle where
  version : String
  active : Bool
  contentHash : Option String
  createdAt : Int
  updatedAt : Int
  deriving DecidableEq

/-- A row of `policy_bundles`. The column `bundle_id` is always bound from the record that is stored
as `raw_json`. -/
structure PolicyBundleRow where
  rawJson : PolicyBundleRecord
  version : String
  active : Bool
  contentHash : String
  createdAt : Int
  updatedAt : Int
  deriving DecidableEq

instance : Keyed PolicyBundleRow String := ⟨fun row => row.rawJson.bundleId⟩

/-- A row of `policy_bundle_version`; its `bundle_id` is that of its content. -/
structure PolicyVersionRow where
  content : PolicyBundleRecord
  version : Int
  active : Bool
  deriving DecidableEq

structure PolicyStore where
  bundles : List PolicyBundleRow
  versions : List PolicyVersionRow
  deriving DecidableEq

/-- The row that an insert binds. -/
def PolicyBundleRecord.row (bundle : PolicyBundleRecord) : PolicyBundleRow where
  rawJson := bundle
  version := bundle.version
  active := bundle.active
  contentHash := bundle.contentHash.getD ""
  createdAt := bundle.createdAt
  updatedAt := bundle.updatedAt

/-- The columns that an update sets: all but `created_at`. -/
def PolicyBundleRow.updated (row : PolicyBundleRow) (bundle : PolicyBundleRecord) :
    PolicyBundleRow :=
  { bundle.row with createdAt := row.createdAt }

/-- `UPDATE policy_bundles … WHERE bundle_id = ?1` -/
def updateRows (rows : List PolicyBundleRow) (bundle : PolicyBundleRecord) : List PolicyBundleRow :=
  rows.map fun row => if row.rawJson.bundleId = bundle.bundleId then row.updated bundle else row

/-- The versions of a bundle, in the order in which they were inserted. -/
def PolicyStore.versionsOf (w : PolicyStore) (bundleId : String) : List PolicyVersionRow :=
  w.versions.filter (·.content.bundleId = bundleId)

/-- `COALESCE(MAX(version), 0)` -/
def maxVersion (versions : List PolicyVersionRow) : Int := (versions.map (·.version)).max?.getD 0

/-! ## Statements -/

inductive PolicyOp where
  | selectByHash (contentHash : String)
  | selectBundle (bundleId : String)
  | insertBundle (bundle : PolicyBundleRecord)
  | updateBundle (bundle : PolicyBundleRecord)
  | selectNextVersion (bundleId : String)
  | insertVersion (bundle : PolicyBundleRecord) (version : Int)
  | updateVersionActive (bundleId : String) (active : Bool)
  | selectVersions (bundleId : String)
  | selectVersion (bundleId : String) (version : Int)
  /-- What the handlers write besides: an entry of the audit log, or a provenance event. -/
  | appendRecord
  deriving DecidableEq

/-- What a statement that does not fail returns. -/
@[reducible] def PolicyOp.Value : PolicyOp → Type
  | .selectByHash _ => Option PolicyBundleRecord
  | .selectBundle _ => Option PolicyBundleRecord
  | .insertBundle _ => Unit
  | .updateBundle _ => Unit
  | .selectNextVersion _ => Int
  | .insertVersion _ _ => Unit
  | .updateVersionActive _ _ => Unit
  | .selectVersions _ => List PolicyVersionRow
  | .selectVersion _ _ => Option PolicyVersionRow
  | .appendRecord => Unit

@[reducible] def PolicyOp.Result (o : PolicyOp) : Type := Except StoreError o.Value

/-- The flag of the highest version, set. -/
def flagHighest (w : PolicyStore) (bundleId : String) (active : Bool) : List PolicyVersionRow :=
  w.versions.map fun row =>
    if row.content.bundleId = bundleId ∧ row.version = maxVersion (w.versionsOf bundleId) then
      { row with active }
    else row

/-- A statement that the database serves. A key that is taken is an error. -/
def serve : (o : PolicyOp) → PolicyStore → o.Result × PolicyStore
  | .selectByHash contentHash, w =>
    (.ok ((w.bundles.find? (·.contentHash = contentHash)).map (·.rawJson)), w)
  | .selectBundle bundleId, w => (.ok ((Rows.find w.bundles bundleId).map (·.rawJson)), w)
  | .insertBundle bundle, w =>
    match Rows.find w.bundles bundle.bundleId with
    | some _ => (.error .database, w)
    | none => (.ok (), { w with bundles := w.bundles ++ [bundle.row] })
  | .updateBundle bundle, w => (.ok (), { w with bundles := updateRows w.bundles bundle })
  | .selectNextVersion bundleId, w => (.ok (maxVersion (w.versionsOf bundleId) + 1), w)
  | .insertVersion bundle version, w =>
    if (w.versionsOf bundle.bundleId).any (·.version = version) then (.error .database, w)
    else (.ok (), { w with versions := w.versions ++ [⟨bundle, version, bundle.active⟩] })
  | .updateVersionActive bundleId active, w =>
    (.ok (), { w with versions := flagHighest w bundleId active })
  | .selectVersions bundleId, w => (.ok (w.versionsOf bundleId), w)
  | .selectVersion bundleId version, w =>
    (.ok ((w.versionsOf bundleId).find? (·.version = version)), w)
  | .appendRecord, w => (.ok (), w)

/-- One statement; the input says whether the store fails. -/
def execPolicy (o : PolicyOp) (fails : Bool) (w : PolicyStore) : o.Result × PolicyStore :=
  if fails then (.error .database, w) else serve o w

/-! ## Routines -/

/-- A routine of the store. -/
abbrev PolicyRepo (α : Type) := ExceptT StoreError (Prog PolicyOp PolicyOp.Result) α

/-- A statement whose error ends the routine. -/
def sql (o : PolicyOp) : PolicyRepo o.Value := ExceptT.mk (Prog.op o)

/-- `insert_version` -/
def insertVersion (bundle : PolicyBundleRecord) : PolicyRepo Int := do
  let newVersion ← sql (.selectNextVersion bundle.bundleId)
  let () ← sql (.insertVersion bundle newVersion)
  return newVersion

/-- `insert` -/
def insert (bundle : PolicyBundleRecord) : PolicyRepo Unit := do
  let () ← sql (.insertBundle bundle)
  let _ ← insertVersion bundle
  return ()

/-- `update` -/
def update (bundle : PolicyBundleRecord) : PolicyRepo Unit := do
  let () ← sql (.updateBundle bundle)
  let _ ← insertVersion bundle
  return ()

/-- `set_active` -/
def setActive (bundleId : String) (active : Bool) : PolicyRepo Unit := do
  let found ← sql (.selectBundle bundleId)
  match found with
  | none => return ()
  | some bundle => do
    update { bundle with active }
    sql (.updateVersionActive bundleId active)

/-- `rollback`; `now` is the time of the call. -/
def rollback (bundleId : String) (targetVersion now : Int) : PolicyRepo Int := do
  let found ← sql (.selectVersion bundleId targetVersion)
  match found with
  | none => throw (.notFound "policy_bundle_version" (toString targetVersion))
  | some target => do
    let newBundle := { target.content with active := true, updatedAt := now }
    let () ← sql (.updateBundle newBundle)
    let newVersion ← insertVersion newBundle
    let () ← sql (.updateVersionActive bundleId true)
    return newVersion

/-- `created_at DESC` -/
def Newer (row row' : PolicyBundleRow) : Prop := row'.createdAt ≤ row.createdAt

instance : DecidableRel Newer := fun _ _ => inferInstanceAs (Decidable (_ ≤ _))

/-- `list_active` -/
def listActive (w : PolicyStore) : List PolicyBundleRecord :=
  ((w.bundles.filter (·.active)).insertionSort Newer).map (·.rawJson)

end FerrumGate.PolicyBundles
