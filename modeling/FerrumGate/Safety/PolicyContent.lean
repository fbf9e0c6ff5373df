import FerrumGate.Gateway.PolicyBundles

/-!
# What requests do to the stored bundles

* **`update_keeps_enforcement_iff`** : an update leaves it to the bundle whether it is enforced
  exactly if it was not enforced: the record is made of the YAML body, which is inactive.
* **`content_hash_kept`** : the stored content hashes stay those of the stored bundles as long as
  nothing but creations of bundles that are read back as written, and requests that change nothing,
  is served.
* `updated_hash_stale` : every other request leaves a hash that is not that of the bundle.
-/

namespace FerrumGate.PolicyBundles

open Interleave

/-! ## What a request leaves of the bundles -/

/-- A request that is served alone, whatever statements fail. -/
def setting : Setting PolicyOp PolicyOp.Result Bool PolicyStore :=
  ⟨execPolicy, fun _ => True, fun _ => True⟩

section Routines

variable {α : Type} {w : PolicyStore} {bundle : PolicyBundleRecord}

theorem endsE_sql {o : PolicyOp} {Q : o.Value → PolicyStore → Prop}
    {E : StoreError → PolicyStore → Prop} :
    EndsE setting Q E (sql o) w ↔
      E .database w ∧ outcome Q E (serve o w).1 (serve o w).2 := by
  constructor
  · intro h
    exact ⟨h true trivial trivial, h false trivial trivial⟩
  · rintro ⟨hfail, hserve⟩ fails - -
    cases fails with
    | true => exact hfail
    | false => exact hserve

/-- Whatever the answer is, this holds of the bundles then. -/
def Leaves {ε : Type} (P : List PolicyBundleRow → Prop)
    (x : ExceptT ε (Prog PolicyOp PolicyOp.Result) α) (w : PolicyStore) : Prop :=
  EndsE setting (fun _ w' => P w'.bundles) (fun _ w' => P w'.bundles) x w

/-- A version that is inserted does not touch the bundles. -/
theorem insertVersion_bundles : Leaves (· = w.bundles) (insertVersion bundle) w := by
  unfold Leaves insertVersion
  rw [endsE_bind, endsE_sql]
  refine ⟨rfl, ?_⟩
  change EndsE setting _ _ _ _
  rw [endsE_bind, endsE_sql]
  refine ⟨rfl, ?_⟩
  unfold serve
  dsimp only
  split_ifs
  · exact rfl
  · exact rfl

/-- The bundles are as they were, or as this statement leaves them. -/
def SameOr (before after' after : List PolicyBundleRow) : Prop := after = before ∨ after = after'

/-- A statement on the bundles, and then a version. -/
theorem then_insertVersion {o : PolicyOp} {bundles : List PolicyBundleRow}
    (hserve : outcome (fun _ w' => w'.bundles = bundles) (fun _ w' => w'.bundles = w.bundles)
      (serve o w).1 (serve o w).2) :
    EndsE setting (fun _ w' => w'.bundles = bundles)
      (fun _ w' => SameOr w.bundles bundles w'.bundles)
      (do let _ ← sql o; let _ ← insertVersion bundle; return ()) w := by
  rw [endsE_bind, endsE_sql]
  refine ⟨.inl rfl, ?_⟩
  cases hresult : (serve o w).1 with
  | error e =>
    rw [hresult] at hserve
    exact .inl hserve
  | ok value =>
    rw [hresult] at hserve
    change EndsE setting _ _ _ _
    rw [endsE_bind]
    exact insertVersion_bundles.mono (fun _ w' h => h.trans hserve)
      (fun _ w' h => .inr (h.trans hserve))

theorem insert_bundles :
    EndsE setting (fun _ w' => w'.bundles = w.bundles ++ [bundle.row])
      (fun _ w' => SameOr w.bundles (w.bundles ++ [bundle.row]) w'.bundles) (insert bundle) w := by
  refine then_insertVersion ?_
  rw [serve]
  cases Rows.find w.bundles bundle.bundleId with
  | none => exact rfl
  | some row => exact rfl

theorem update_bundles :
    EndsE setting (fun _ w' => w'.bundles = updateRows w.bundles bundle)
      (fun _ w' => SameOr w.bundles (updateRows w.bundles bundle) w'.bundles) (update bundle) w :=
  then_insertVersion rfl

/-- `set_active` writes the record of the row with another flag. -/
theorem setActive_bundles {bundleId : String} {active : Bool} {P : List PolicyBundleRow → Prop}
    (hsame : P w.bundles)
    (hupdated : ∀ row, Rows.find w.bundles bundleId = some row →
      P (updateRows w.bundles { row.rawJson with active })) :
    Leaves P (setActive bundleId active) w := by
  unfold Leaves setActive
  rw [endsE_bind, endsE_sql]
  refine ⟨hsame, ?_⟩
  change outcome _ _ (Except.ok ((Rows.find w.bundles bundleId).map (·.rawJson))) w
  cases hfind : Rows.find w.bundles bundleId with
  | none => exact hsame
  | some row =>
    change EndsE setting _ _ (update { row.rawJson with active } >>= _) w
    rw [endsE_bind]
    refine update_bundles.mono (fun _ w' h => ?_) (fun _ w' h => ?_)
    · have hwritten : P w'.bundles := h.symm ▸ hupdated row hfind
      exact endsE_sql.2 ⟨hwritten, hwritten⟩
    · rcases h with h | h
      · exact h.symm ▸ hsame
      · exact h.symm ▸ hupdated row hfind

/-- `rollback` writes the content of the version, active and with a new time. -/
theorem rollback_bundles {bundleId : String} {targetVersion now : Int}
    {P : List PolicyBundleRow → Prop} (hsame : P w.bundles)
    (hupdated : ∀ target, (w.versionsOf bundleId).find? (·.version = targetVersion) = some target →
      P (updateRows w.bundles { target.content with active := true, updatedAt := now })) :
    Leaves P (rollback bundleId targetVersion now) w := by
  unfold Leaves rollback
  rw [endsE_bind, endsE_sql]
  refine ⟨hsame, ?_⟩
  change outcome _ _ (Except.ok ((w.versionsOf bundleId).find? (·.version = targetVersion))) w
  cases hfind : (w.versionsOf bundleId).find? (·.version = targetVersion) with
  | none => exact hsame
  | some target =>
    have hwritten := hupdated target hfind
    change EndsE setting _ _ (sql (.updateBundle { target.content with
      active := true, updatedAt := now }) >>= _) w
    rw [endsE_bind, endsE_sql]
    refine ⟨hsame, ?_⟩
    change EndsE setting _ _ (insertVersion _ >>= _) _
    rw [endsE_bind]
    refine insertVersion_bundles.mono (fun _ w' h => ?_) (fun _ w' h => h.symm ▸ hwritten)
    rw [endsE_bind, endsE_sql]
    have hstill : P w'.bundles := h.symm ▸ hwritten
    exact ⟨hstill, hstill⟩

/-- What the handlers write besides leaves the bundles alone. -/
theorem appendAuditChecked_bundles {env : PolicyEnv} {P : List PolicyBundleRow → Prop}
    (h : P w.bundles) : Leaves P (appendAuditChecked env) w := by
  unfold Leaves appendAuditChecked ask
  rw [endsE_bind, endsE_lift]
  intro fails _ _
  have hsame : P (execPolicy .appendRecord fails w).2.bundles := by
    cases fails <;> exact h
  generalize (execPolicy .appendRecord fails w).1 = appended
  change EndsE setting _ _ (ofExcept _) _
  unfold ensure
  split_ifs
  · exact hsame
  · exact hsame

/-- What the handlers do once the bundles are written: an audit entry, and an event. -/
theorem record_bundles {env : PolicyEnv} {P : List PolicyBundleRow → Prop} (h : P w.bundles)
    (answer : α) :
    Leaves P (do
      appendAuditChecked env
      store (sql .appendRecord)
      return answer) w := by
  unfold Leaves store
  rw [endsE_bind]
  refine (appendAuditChecked_bundles h).mono (fun _ w' h => ?_) (fun _ _ h => h)
  rw [endsE_bind, endsE_adapt]
  exact endsE_sql.2 ⟨h, h⟩

end Routines

/-! ## Handlers -/

section Handlers

variable {env : PolicyEnv} {w : PolicyStore}

/-- The record that an update stores. -/
def mergedRecord (env : PolicyEnv) (body : YamlBody) (parsed now : Int)
    (existing : PolicyBundleRecord) : PolicyBundleRecord :=
  let bundle := { body.intoRecord env parsed with createdAt := existing.createdAt, updatedAt := now }
  { bundle with contentHash := some (bundle.computeContentHash env) }

/-- What `create_policy_bundle` leaves. -/
theorem createPolicyBundle_bundles {yaml : Except String YamlBody} {now : Int}
    {P : List PolicyBundleRow → Prop} (hsame : P w.bundles)
    (hinserted : ∀ body, yaml = .ok body → P (w.bundles ++ [(body.intoRecord env now).row])) :
    Leaves P (createPolicyBundle env yaml now) w := by
  unfold Leaves createPolicyBundle
  rw [endsE_bind]
  cases yaml with
  | error e => exact hsame
  | ok body =>
    change EndsE setting _ _ (ask _ >>= _) w
    unfold ask
    rw [endsE_bind, endsE_lift]
    intro fails _ _
    have hworld : ∀ contentHash, (execPolicy (.selectByHash contentHash) fails w).2 = w := by
      intro contentHash
      cases fails <;> rfl
    rw [show setting.exec = execPolicy from rfl, hworld]
    generalize (execPolicy (.selectByHash _) fails w).1 = existing
    have hinsert : Leaves P
        (do
          store (insert (body.intoRecord env now))
          appendAuditChecked env
          return (⟨body.intoRecord env now, (body.intoRecord env now).contentHash.getD ""⟩ :
            PolicyBundleResponse)) w := by
      unfold Leaves store
      rw [endsE_bind, endsE_adapt]
      refine insert_bundles.mono (fun _ w' h => ?_) (fun _ w' h => ?_)
      · rw [endsE_bind]
        exact (appendAuditChecked_bundles (h.symm ▸ hinserted body rfl)).mono (fun _ _ h => h)
          (fun _ _ h => h)
      · rcases h with h | h
        · exact h.symm ▸ hsame
        · exact h.symm ▸ hinserted body rfl
    rcases existing with e | found
    · exact hinsert
    · cases found with
      | none => exact hinsert
      | some existing => exact hsame

/-- What `update_policy_bundle` leaves: if it answers, the merged record is stored. -/
theorem updatePolicyBundle_bundles {bundleId : String} {yaml : Except String YamlBody}
    {parsed now : Int} {P : List PolicyBundleRow → Prop} {Q : List PolicyBundleRow → Prop}
    (hsame : P w.bundles)
    (hupdated : ∀ body row, yaml = .ok body → body.bundleId = bundleId →
      Rows.find w.bundles bundleId = some row →
        Q (updateRows w.bundles (mergedRecord env body parsed now row.rawJson)) ∧
        P (updateRows w.bundles (mergedRecord env body parsed now row.rawJson))) :
    EndsE setting (fun _ w' => Q w'.bundles) (fun _ w' => P w'.bundles)
      (updatePolicyBundle env bundleId yaml parsed now) w := by
  unfold updatePolicyBundle
  rw [endsE_bind]
  cases yaml with
  | error e => exact hsame
  | ok body =>
    change EndsE setting _ _ (ofExcept _ >>= _) w
    rw [endsE_bind]
    unfold ensure
    by_cases hid : (body.intoRecord env parsed).bundleId = bundleId
    · rw [if_pos hid]
      change EndsE setting _ _ (store (sql (.selectBundle bundleId)) >>= _) w
      unfold store
      rw [endsE_bind, endsE_adapt, endsE_sql]
      refine ⟨hsame, ?_⟩
      change outcome _ _ (Except.ok ((Rows.find w.bundles bundleId).map (·.rawJson))) w
      cases hfind : Rows.find w.bundles bundleId with
      | none => exact hsame
      | some row =>
        obtain ⟨hQ, hP⟩ := hupdated body row rfl hid hfind
        change EndsE setting _ _ (ExceptT.adapt _ (update (mergedRecord env body parsed now
          row.rawJson)) >>= _) w
        rw [endsE_bind, endsE_adapt]
        refine update_bundles.mono (fun _ w' h => ?_) (fun _ w' h => ?_)
        · change Q w'.bundles
          exact h.symm ▸ hQ
        · rcases h with h | h
          · exact h.symm ▸ hsame
          · exact h.symm ▸ hP
    · rw [if_neg hid]
      exact hsame

theorem setPolicyBundleActive_bundles {bundleId : String} {active : Bool}
    {P : List PolicyBundleRow → Prop} (hsame : P w.bundles)
    (hupdated : ∀ row, Rows.find w.bundles bundleId = some row →
      P (updateRows w.bundles { row.rawJson with active })) :
    Leaves P (setPolicyBundleActive env bundleId active) w := by
  unfold Leaves setPolicyBundleActive store
  rw [endsE_bind, endsE_adapt, endsE_sql]
  refine ⟨hsame, ?_⟩
  change outcome _ _ (Except.ok ((Rows.find w.bundles bundleId).map (·.rawJson))) w
  cases hfind : Rows.find w.bundles bundleId with
  | none => exact hsame
  | some row =>
    change EndsE setting _ _ (ExceptT.adapt _ (setActive bundleId active) >>= _) w
    rw [endsE_bind, endsE_adapt]
    exact (setActive_bundles hsame hupdated).mono (fun _ _ h => record_bundles h _)
      (fun _ _ h => h)

theorem rollbackPolicyBundle_bundles {bundleId : String} {targetVersion now : Int}
    {P : List PolicyBundleRow → Prop} (hsame : P w.bundles)
    (hupdated : ∀ target, (w.versionsOf bundleId).find? (·.version = targetVersion) = some target →
      P (updateRows w.bundles { target.content with active := true, updatedAt := now })) :
    Leaves P (rollbackPolicyBundle env bundleId targetVersion now) w := by
  unfold Leaves rollbackPolicyBundle store
  rw [endsE_bind, endsE_adapt, endsE_sql]
  refine ⟨hsame, ?_⟩
  change EndsE setting _ _ (ExceptT.adapt _ (rollback bundleId targetVersion now) >>= _) w
  rw [endsE_bind, endsE_adapt]
  exact (rollback_bundles hsame hupdated).mono (fun _ _ h => record_bundles h _) (fun _ _ h => h)

end Handlers

/-! ## Enforcement -/

/-- A bundle is returned by `list_active`. -/
def Enforced (w : PolicyStore) (bundleId : String) : Prop :=
  ∃ bundle ∈ listActive w, bundle.bundleId = bundleId

theorem enforced_iff {w : PolicyStore} {bundleId : String} :
    Enforced w bundleId ↔ ∃ row ∈ w.bundles, row.active = true ∧ row.rawJson.bundleId = bundleId := by
  unfold Enforced listActive
  simp only [List.mem_map, List.mem_insertionSort, List.mem_filter]
  constructor
  · rintro ⟨_, ⟨row, ⟨hrow, hactive⟩, rfl⟩, hid⟩
    exact ⟨row, hrow, hactive, hid⟩
  · rintro ⟨row, hrow, hactive, hid⟩
    exact ⟨_, ⟨row, ⟨hrow, hactive⟩, rfl⟩, hid⟩

/-- The rows of the other bundles. -/
def otherRows (w : PolicyStore) (bundleId : String) : List PolicyBundleRow :=
  w.bundles.filter (·.rawJson.bundleId ≠ bundleId)

/-- An update touches the rows of its bundle only. -/
theorem filter_updateRows (rows : List PolicyBundleRow) (bundle : PolicyBundleRecord) :
    (updateRows rows bundle).filter (·.rawJson.bundleId ≠ bundle.bundleId) =
      rows.filter (·.rawJson.bundleId ≠ bundle.bundleId) := by
  induction rows with
  | nil => rfl
  | cons row rows ih =>
    rw [updateRows] at ih ⊢
    rw [List.map_cons]
    by_cases hid : row.rawJson.bundleId = bundle.bundleId
    · have hnew : (row.updated bundle).rawJson.bundleId = bundle.bundleId := rfl
      rw [if_pos hid, List.filter_cons_of_neg (by simp [hnew]), List.filter_cons_of_neg (by simp [hid]),
        ih]
    · rw [if_neg hid, List.filter_cons_of_pos (by simp [hid]), List.filter_cons_of_pos (by simp [hid]),
        ih]

/-- A bundle whose rows were written from an inactive record is not enforced. -/
theorem not_enforced_updated {w w' : PolicyStore} {bundle : PolicyBundleRecord}
    (h : w'.bundles = updateRows w.bundles bundle) (hinactive : bundle.active = false) :
    ¬ Enforced w' bundle.bundleId := by
  rw [enforced_iff, h]
  rintro ⟨row, hrow, hactive, hid⟩
  obtain ⟨old, -, rfl⟩ := List.mem_map.1 hrow
  split_ifs at hactive hid with hold
  · rw [show (old.updated bundle).active = bundle.active from rfl, hinactive] at hactive
    cases hactive
  · exact hold hid

/-- **An update keeps the enforcement of a bundle exactly if it was not enforced**; it never changes
the row of another one. -/
theorem update_keeps_enforcement_iff (env : PolicyEnv) (w : PolicyStore) (bundleId : String)
    (yaml : Except String YamlBody) (parsed now : Int) (fails : Nat → Bool)
    (response : PolicyBundleResponse)
    (h : ((updatePolicyBundle env bundleId yaml parsed now).run.play execPolicy fails w).1 =
      .ok response) :
    ((Enforced ((updatePolicyBundle env bundleId yaml parsed now).run.play execPolicy fails w).2
          bundleId ↔ Enforced w bundleId) ∧
      otherRows ((updatePolicyBundle env bundleId yaml parsed now).run.play execPolicy fails w).2
          bundleId = otherRows w bundleId) ↔ ¬ Enforced w bundleId := by
  have hspec : EndsE setting (fun _ w' => ∃ bundle : PolicyBundleRecord,
        bundle.bundleId = bundleId ∧ bundle.active = false ∧
          w'.bundles = updateRows w.bundles bundle) (fun _ _ => True)
      (updatePolicyBundle env bundleId yaml parsed now) w :=
    updatePolicyBundle_bundles (P := fun _ => True) (Q := fun bundles =>
      ∃ bundle : PolicyBundleRecord, bundle.bundleId = bundleId ∧ bundle.active = false ∧
        bundles = updateRows w.bundles bundle) trivial
      fun body row _ hid _ => ⟨⟨_, hid, rfl, rfl⟩, trivial⟩
  have hplay := Ends.play hspec (fun _ => trivial) (fun _ => trivial) fails
  rw [show setting.exec = execPolicy from rfl, h] at hplay
  obtain ⟨bundle, rfl, hinactive, hbundles⟩ := hplay
  have hafter := not_enforced_updated hbundles hinactive
  have hothers : otherRows ((updatePolicyBundle env bundle.bundleId yaml parsed now).run.play
      execPolicy fails w).2 bundle.bundleId = otherRows w bundle.bundleId := by
    rw [otherRows, hbundles, filter_updateRows, otherRows]
  constructor
  · rintro ⟨hiff, -⟩ hbefore
    exact hafter (hiff.2 hbefore)
  · intro hbefore
    exact ⟨iff_of_false hafter hbefore, hothers⟩

/-! ## Content hashes -/

/-- The record without its hash. -/
def cleared (bundle : PolicyBundleRecord) : PolicyBundleRecord := { bundle with contentHash := none }

/-- The hash of a row, in its column and in its record, is that of the record that is read, without
it. -/
def RowHashed (env : PolicyEnv) (row : PolicyBundleRow) : Prop :=
  row.contentHash = (cleared (row.rawJson.reread env)).computeContentHash env ∧
    row.rawJson.contentHash = some row.contentHash

/-- Every stored content hash is that of the bundle it is stored with. -/
def HashSound (env : PolicyEnv) (bundles : List PolicyBundleRow) : Prop :=
  ∀ row ∈ bundles, RowHashed env row

instance (env : PolicyEnv) (row : PolicyBundleRow) : Decidable (RowHashed env row) :=
  inferInstanceAs (Decidable (_ ∧ _))

instance (env : PolicyEnv) (bundles : List PolicyBundleRow) : Decidable (HashSound env bundles) :=
  inferInstanceAs (Decidable (∀ row ∈ bundles, _))

/-- The request changes no record: it creates one that is read back as it was written, finds nothing
to change, or sets the flag that is set. Rows of the model give back what was stored. -/
def Harmless (env : PolicyEnv) (w : PolicyStore) : PolicyRequest → Prop
  | .create yaml now => ∀ body, yaml = .ok body →
    (body.intoRecord env now).reread env = body.intoRecord env now
  | .update bundleId yaml _ _ => ∀ body, yaml = .ok body → body.bundleId = bundleId →
    Rows.find w.bundles bundleId = none
  | .setActive bundleId active => ∀ row, Rows.find w.bundles bundleId = some row →
    row.rawJson.active = active
  | .rollback bundleId targetVersion _ =>
    (w.versionsOf bundleId).find? (·.version = targetVersion) = none

/-- The store after requests that were served one after another; with each request, which of its
statements failed. -/
def served (env : PolicyEnv) (w : PolicyStore) (requests : List (PolicyRequest × (Nat → Bool))) :
    PolicyStore :=
  requests.foldl (fun w r => ((r.1.handler env).run.play execPolicy r.2 w).2) w

namespace ContentSample

/-- A bundle's text says whether it is active, and its hash. -/
def env : PolicyEnv where
  reread json := json
  lowercase := .plain
  toJson bundle := (if bundle.active then 't' else 'f') :: (bundle.contentHash.getD "-").toList
  sha256Hex := String.ofList
  sanitize text := text
  auditFailClosed := false

/-- A bundle without rules. -/
def body : YamlBody := { bundleId := "b", rules := [], version := "1" }

def create : PolicyRequest × (Nat → Bool) := (.create (.ok body) 1, fun _ => false)

def activate : PolicyRequest × (Nat → Bool) := (.setActive "b" true, fun _ => false)

def deactivate : PolicyRequest × (Nat → Bool) := (.setActive "b" false, fun _ => false)

/-- The bundle as it was created. -/
def created : PolicyStore := served env ⟨[], []⟩ [create]

/-- And after it was activated. -/
def activated : PolicyStore := served env ⟨[], []⟩ [create, activate]

/-- The answer to an update with the same rules. -/
def answer : PolicyBundleResponse :=
  ⟨mergedRecord env body 2 2 (body.intoRecord env 1),
    (mergedRecord env body 2 2 (body.intoRecord env 1)).contentHash.getD ""⟩

instance (w : PolicyStore) (bundleId : String) : Decidable (Enforced w bundleId) :=
  inferInstanceAs (Decidable (∃ bundle ∈ listActive w, _))

end ContentSample

section Hashes

variable {env : PolicyEnv} {w : PolicyStore}

/-- A bundle is created with its hash. -/
theorem hashSound_created (h : HashSound env w.bundles) {body : YamlBody} {now : Int}
    (hread : (body.intoRecord env now).reread env = body.intoRecord env now) :
    HashSound env (w.bundles ++ [(body.intoRecord env now).row]) := by
  intro row hrow
  rcases List.mem_append.1 hrow with hrow | hrow
  · exact h row hrow
  · rw [List.mem_singleton.1 hrow]
    refine ⟨?_, rfl⟩
    rw [show (body.intoRecord env now).row.rawJson = body.intoRecord env now from rfl, hread]
    rfl

/-- A record that is written once more, as it is. -/
theorem hashSound_rewritten (h : HashSound env w.bundles) {row : PolicyBundleRow}
    (hrow : row ∈ w.bundles) : HashSound env (updateRows w.bundles row.rawJson) := by
  obtain ⟨hcolumn, hrecord⟩ := h row hrow
  intro written hwritten
  obtain ⟨old, hold, rfl⟩ := List.mem_map.1 hwritten
  split_ifs
  · have hhash : (old.updated row.rawJson).contentHash = row.contentHash := by
      change row.rawJson.contentHash.getD "" = row.contentHash
      rw [hrecord, Option.getD_some]
    refine ⟨?_, ?_⟩
    · rw [hhash, hcolumn]
      rfl
    · rw [hhash]
      exact hrecord
  · exact h old hold

/-- **A harmless request keeps the hashes.** -/
theorem hashSound_request (h : HashSound env w.bundles) {request : PolicyRequest}
    (hharmless : Harmless env w request) :
    Leaves (HashSound env) (request.handler env) w := by
  unfold Leaves
  cases request with
  | create yaml now =>
    rw [PolicyRequest.handler, endsE_bind]
    exact createPolicyBundle_bundles h fun body hyaml =>
      hashSound_created h (hharmless body hyaml)
  | update bundleId yaml parsed now =>
    rw [PolicyRequest.handler, endsE_bind]
    refine updatePolicyBundle_bundles (Q := HashSound env) h fun body row hyaml hid hfind => ?_
    rw [hharmless body hyaml hid] at hfind
    cases hfind
  | setActive bundleId active =>
    rw [PolicyRequest.handler, endsE_bind]
    refine setPolicyBundleActive_bundles h fun row hfind => ?_
    have hsame : { row.rawJson with active } = row.rawJson := by rw [← hharmless row hfind]
    rw [hsame]
    exact hashSound_rewritten h (Rows.mem_of_find hfind)
  | rollback bundleId targetVersion now =>
    rw [PolicyRequest.handler, endsE_bind]
    refine rollbackPolicyBundle_bundles h fun target hfind => ?_
    rw [show (w.versionsOf bundleId).find? _ = none from hharmless] at hfind
    cases hfind

theorem outcome_both {α ε σ : Type} {P : σ → Prop} {result : Except ε α} {w : σ}
    (h : outcome (fun _ w' => P w') (fun _ w' => P w') result w) : P w := by
  cases result <;> exact h

end Hashes

/-- **The hashes of a store to which nothing but harmless requests were made.** The induction is on
the requests, from their end. -/
theorem content_hash_kept (env : PolicyEnv) (requests : List (PolicyRequest × (Nat → Bool)))
    (h : ∀ before request after, requests = before ++ request :: after →
      Harmless env (served env ⟨[], []⟩ before) request.1) :
    HashSound env (served env ⟨[], []⟩ requests).bundles := by
  induction requests using List.reverseRecOn with
  | nil =>
    intro row hrow
    cases hrow
  | append_singleton requests request ih =>
    have hbefore := ih fun before other after heq => h before other (after ++ [request]) (by
      rw [heq, List.append_assoc, List.cons_append])
    have hplay := Ends.play (hashSound_request hbefore (h requests request [] rfl))
      (fun _ => trivial) (fun _ => trivial) request.2
    have hkept := outcome_both (P := fun w : PolicyStore => HashSound env w.bundles) hplay
    rw [served, List.foldl_concat]
    exact hkept

open ContentSample in
/-- A bundle that is created, and deactivated though it is not active. -/
theorem content_hash_of_created :
    HashSound env (served env ⟨[], []⟩ [create, deactivate]).bundles ∧
      (served env ⟨[], []⟩ [create, deactivate]).bundles ≠ [] := by
  refine ⟨content_hash_kept env [create, deactivate] ?_, by decide +kernel⟩
  intro before request after heq
  rcases before with _ | ⟨first, _ | ⟨second, before⟩⟩
  · rw [← (List.cons.inj heq).1]
    rintro _ ⟨⟩
    rfl
  · obtain ⟨hfirst, hrest⟩ := List.cons.inj heq
    rw [← hfirst, ← (List.cons.inj hrest).1]
    intro row hfind
    have hfound : Rows.find (served env ⟨[], []⟩ [create]).bundles "b" =
        some (body.intoRecord env 1).row := by decide +kernel
    rw [hfound] at hfind
    cases hfind
    rfl
  · simp at heq

open ContentSample in
/-- Every other request leaves a hash that is not that of the bundle: activation, an update with the
same rules, and a rollback. -/
theorem updated_hash_stale :
    ¬ HashSound env (served env ⟨[], []⟩ [create, activate]).bundles ∧
      ¬ HashSound env (served env ⟨[], []⟩
        [create, (.update "b" (.ok body) 2 2, fun _ => false)]).bundles ∧
      ¬ HashSound env (served env ⟨[], []⟩
        [create, (.rollback "b" 1 2, fun _ => false)]).bundles := by
  decide +kernel

open ContentSample in
/-- An update of a bundle that is not active. -/
theorem update_keeps_inactive :
    (Enforced ((updatePolicyBundle env "b" (.ok body) 2 2).run.play execPolicy (fun _ => false)
        created).2 "b" ↔ Enforced created "b") ∧
      otherRows ((updatePolicyBundle env "b" (.ok body) 2 2).run.play execPolicy (fun _ => false)
        created).2 "b" = otherRows created "b" :=
  (update_keeps_enforcement_iff env created "b" (.ok body) 2 2 (fun _ => false) answer
    (by decide +kernel)).2 (by decide +kernel)

open ContentSample in
/-- An update of an active bundle, with the rules it has: it is not enforced any more. -/
theorem update_deactivates :
    ((updatePolicyBundle env "b" (.ok body) 2 2).run.play execPolicy (fun _ => false)
        activated).1 = .ok answer ∧
      Enforced activated "b" ∧
      ¬ Enforced ((updatePolicyBundle env "b" (.ok body) 2 2).run.play execPolicy (fun _ => false)
        activated).2 "b" := by
  decide +kernel

end FerrumGate.PolicyBundles
