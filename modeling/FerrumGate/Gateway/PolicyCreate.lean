import FerrumGate.Gateway.PolicyBundles

/-!
# Creating a policy bundle twice

`create_policy_bundle` looks for a bundle with the same content hash before it inserts one. The hash
is that of the whole record, with `created_at` and `updated_at`, which are the time of the request.
So the same text at another time has another hash: the lookup misses, and the insert fails because
the bundle id is taken.

* **`create_again_iff`** : when the second request returns the bundle of the first one.
-/

namespace FerrumGate.PolicyBundles

open Interleave

/-- A request that is served alone and without failures: the answer, and the store it leaves. -/
def runCreate (env : PolicyEnv) (yaml : YamlBody) (now : Int) (w : PolicyStore) :
    Except ApiProblem PolicyBundleResponse × PolicyStore :=
  (createPolicyBundle env (.ok yaml) now).run.finish execPolicy false w

/-- The content hash of the record made of a text at a time. -/
def hashAt (env : PolicyEnv) (yaml : YamlBody) (now : Int) : String :=
  ((yaml.intoRecord env now).contentHash).getD ""

section Finish

variable {env : PolicyEnv} {yaml : YamlBody} {now : Int} {w : PolicyStore}

theorem finish_sql (o : PolicyOp) (w : PolicyStore) :
    (sql o).run.finish execPolicy false w = serve o w := rfl

theorem finish_store {α : Type} (x : PolicyRepo α) (w : PolicyStore) :
    (store x).run.finish execPolicy false w =
      ((x.run.finish execPolicy false w).1.mapError fun e => ApiProblem.internal e.text,
        (x.run.finish execPolicy false w).2) :=
  Prog.finish_bind rfl

/-- The next version is free. -/
theorem version_le_maxVersion {versions : List PolicyVersionRow} {row : PolicyVersionRow}
    (h : row ∈ versions) : row.version ≤ maxVersion versions := by
  unfold maxVersion
  have hmem := List.mem_map_of_mem (f := PolicyVersionRow.version) h
  cases hmax : (versions.map (·.version)).max? with
  | none =>
    rw [List.max?_eq_none_iff.1 hmax] at hmem
    exact absurd hmem List.not_mem_nil
  | some highest => exact (List.max?_eq_some_iff.1 hmax).2 _ hmem

theorem insertVersion_finish (bundle : PolicyBundleRecord) (w : PolicyStore) :
    (insertVersion bundle).run.finish execPolicy false w =
      (.ok (maxVersion (w.versionsOf bundle.bundleId) + 1),
        { w with versions := w.versions ++
          [⟨bundle, maxVersion (w.versionsOf bundle.bundleId) + 1, bundle.active⟩] }) := by
  have hfree : (w.versionsOf bundle.bundleId).any (fun row =>
      row.version = maxVersion (w.versionsOf bundle.bundleId) + 1) = false := by
    rw [List.any_eq_false]
    intro row hrow
    have := version_le_maxVersion hrow
    simp only [decide_eq_true_eq]
    omega
  have hserve : serve (.insertVersion bundle (maxVersion (w.versionsOf bundle.bundleId) + 1)) w =
      (.ok (), { w with versions := w.versions ++
        [⟨bundle, maxVersion (w.versionsOf bundle.bundleId) + 1, bundle.active⟩] }) := by
    simp only [serve, hfree, Bool.false_eq_true, if_false]
  unfold insertVersion
  rw [finish_ok (finish_sql _ _)]
  exact finish_ok hserve

/-- A bundle whose id is free is stored, with its first or next version. -/
theorem insert_finish (bundle : PolicyBundleRecord)
    (h : Rows.find w.bundles bundle.bundleId = none) :
    (insert bundle).run.finish execPolicy false w =
      (.ok (), ⟨w.bundles ++ [bundle.row], w.versions ++
        [⟨bundle, maxVersion (w.versionsOf bundle.bundleId) + 1, bundle.active⟩]⟩) := by
  have hserve : (sql (.insertBundle bundle)).run.finish execPolicy false w =
      (.ok (), { w with bundles := w.bundles ++ [bundle.row] }) := by
    rw [finish_sql]
    simp only [serve, h]
  unfold insert
  rw [finish_ok hserve, finish_ok (insertVersion_finish _ _)]
  rfl

/-- A bundle whose id is taken is not. -/
theorem insert_finish_taken (bundle : PolicyBundleRecord) {row : PolicyBundleRow}
    (h : Rows.find w.bundles bundle.bundleId = some row) :
    (insert bundle).run.finish execPolicy false w = (.error .database, w) := by
  have hserve : (sql (.insertBundle bundle)).run.finish execPolicy false w =
      (.error .database, w) := by
    rw [finish_sql]
    simp only [serve, h]
  unfold insert
  exact finish_error hserve

/-! ### The three ends of a request -/

theorem parsePolicyBundleYaml_ok (env : PolicyEnv) (yaml : YamlBody) (now : Int) :
    parsePolicyBundleYaml env (.ok yaml) now = .ok (yaml.intoRecord env now) := rfl

theorem runCreate_found {row : PolicyBundleRow}
    (h : (w.bundles.find? (·.contentHash = hashAt env yaml now)) = some row) :
    runCreate env yaml now w = (.ok ⟨row.rawJson, hashAt env yaml now⟩, w) := by
  have hask : (ask (.selectByHash (hashAt env yaml now))).run.finish execPolicy false w =
      (.ok (.ok (some row.rawJson)), w) := by
    change (Except.ok (serve (.selectByHash (hashAt env yaml now)) w).1, w) = _
    simp only [serve, h, Option.map_some]
  unfold runCreate createPolicyBundle
  rw [finish_ofExcept_ok (parsePolicyBundleYaml_ok env yaml now)]
  exact finish_ok hask

theorem runCreate_missed (h : (w.bundles.find? (·.contentHash = hashAt env yaml now)) = none) :
    runCreate env yaml now w =
      ((store (insert (yaml.intoRecord env now)) >>= fun _ => appendAuditChecked env >>= fun _ =>
        pure ⟨yaml.intoRecord env now, hashAt env yaml now⟩).run.finish execPolicy false w) := by
  have hask : (ask (.selectByHash (hashAt env yaml now))).run.finish execPolicy false w =
      (.ok (.ok none), w) := by
    change (Except.ok (serve (.selectByHash (hashAt env yaml now)) w).1, w) = _
    simp only [serve, h, Option.map_none]
  unfold runCreate createPolicyBundle
  rw [finish_ofExcept_ok (parsePolicyBundleYaml_ok env yaml now)]
  exact finish_ok hask

theorem runCreate_stored (hhash : (w.bundles.find? (·.contentHash = hashAt env yaml now)) = none)
    (hfree : Rows.find w.bundles yaml.bundleId = none) :
    runCreate env yaml now w =
      (.ok ⟨yaml.intoRecord env now, hashAt env yaml now⟩,
        ⟨w.bundles ++ [(yaml.intoRecord env now).row], w.versions ++
          [⟨yaml.intoRecord env now, maxVersion (w.versionsOf yaml.bundleId) + 1, false⟩]⟩) := by
  have hstore := finish_store (insert (yaml.intoRecord env now)) w
  rw [insert_finish (yaml.intoRecord env now) hfree] at hstore
  rw [runCreate_missed hhash, finish_ok hstore]
  rfl

theorem runCreate_refused {row : PolicyBundleRow}
    (hhash : (w.bundles.find? (·.contentHash = hashAt env yaml now)) = none)
    (htaken : Rows.find w.bundles yaml.bundleId = some row) :
    runCreate env yaml now w = (.error (ApiProblem.internal "database error"), w) := by
  have hstore := finish_store (insert (yaml.intoRecord env now)) w
  rw [insert_finish_taken (yaml.intoRecord env now) htaken] at hstore
  rw [runCreate_missed hhash]
  exact finish_error hstore

end Finish

/-! ## The second request -/

/-- A text whose bundle was just stored is found again by the hash of that bundle alone. -/
theorem find_stored {env : PolicyEnv} {yaml : YamlBody} {first : Int} {w : PolicyStore}
    (hid : Rows.find w.bundles yaml.bundleId = none) {hash : String} {row : PolicyBundleRow}
    (h : ((w.bundles ++ [(yaml.intoRecord env first).row]).find? (·.contentHash = hash)) = some row)
    (hjson : row.rawJson = yaml.intoRecord env first) : hash = hashAt env yaml first := by
  have hmem := List.mem_of_find?_eq_some h
  have hcolumn : row.contentHash = hash := by simpa using List.find?_some h
  rcases List.mem_append.1 hmem with hrow | hrow
  · -- no other row has the id of the bundle
    have hfree := List.find?_eq_none.1 hid row hrow
    rw [decide_eq_true_eq] at hfree
    exact absurd (congrArg (·.bundleId) hjson) hfree
  · rw [← hcolumn, List.mem_singleton.1 hrow]
    rfl

/-- **When a creation can be repeated**: the first request stores its bundle, and the second one, if
different times give different hashes, returns that bundle and changes nothing just when it is made
at the very same time. -/
theorem create_again_iff (env : PolicyEnv) (yaml : YamlBody) (first second : Int) (w : PolicyStore)
    (hid : Rows.find w.bundles yaml.bundleId = none)
    (hhash : (w.bundles.find? (·.contentHash = hashAt env yaml first)) = none)
    (hdistinct : hashAt env yaml first = hashAt env yaml second → first = second) :
    (runCreate env yaml first w).1 = .ok ⟨yaml.intoRecord env first, hashAt env yaml first⟩ ∧
      (runCreate env yaml second (runCreate env yaml first w).2 =
          (.ok ⟨yaml.intoRecord env first, hashAt env yaml second⟩,
            (runCreate env yaml first w).2) ↔
        first = second) := by
  have hstored := runCreate_stored hhash hid
  refine ⟨by rw [hstored], ?_⟩
  rw [hstored]
  constructor
  · intro h
    cases hfind : ((w.bundles ++ [(yaml.intoRecord env first).row]).find?
        (·.contentHash = hashAt env yaml second)) with
    | some row =>
      rw [runCreate_found hfind, Prod.mk.injEq, Except.ok.injEq, PolicyBundleResponse.mk.injEq] at h
      exact hdistinct (find_stored hid hfind h.1.1).symm
    | none =>
      have htaken : Rows.find (w.bundles ++ [(yaml.intoRecord env first).row]) yaml.bundleId =
          some (yaml.intoRecord env first).row := by
        rw [Rows.find, List.find?_append, ← Rows.find, hid, List.find?_singleton]
        exact if_pos (decide_eq_true rfl)
      rw [runCreate_refused hfind htaken, Prod.mk.injEq] at h
      cases h.1
  · rintro rfl
    have hfind : ((w.bundles ++ [(yaml.intoRecord env first).row]).find?
        (·.contentHash = hashAt env yaml first)) = some (yaml.intoRecord env first).row := by
      rw [List.find?_append, hhash, List.find?_singleton]
      exact if_pos (decide_eq_true rfl)
    rw [runCreate_found hfind]
    rfl

namespace CreateSample

/-- A bundle's text is its time. -/
def env : PolicyEnv where
  reread json := json
  lowercase := .plain
  toJson bundle := List.replicate bundle.createdAt.toNat '1'
  sha256Hex := String.ofList
  sanitize text := text
  auditFailClosed := false

/-- A bundle without rules. -/
def body : YamlBody := { bundleId := "b", rules := [], version := "1" }

end CreateSample

open CreateSample in
theorem create_again_same_time :
    runCreate env body 1 (runCreate env body 1 ⟨[], []⟩).2 =
      (.ok ⟨body.intoRecord env 1, hashAt env body 1⟩, (runCreate env body 1 ⟨[], []⟩).2) :=
  (create_again_iff env body 1 1 ⟨[], []⟩ rfl rfl fun _ => rfl).2.2 rfl

open CreateSample in
/-- The same text one nanosecond later is refused. -/
theorem create_again_refused :
    (runCreate env body 1 ⟨[], []⟩).1 = .ok ⟨body.intoRecord env 1, "1"⟩ ∧
      (runCreate env body 2 (runCreate env body 1 ⟨[], []⟩).2).1 =
        .error (ApiProblem.internal "database error") := by
  decide

end FerrumGate.PolicyBundles
