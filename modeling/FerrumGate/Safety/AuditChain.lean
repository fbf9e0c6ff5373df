import FerrumGate.Interleave.Solo
import FerrumGate.Store.AuditLog

/-!
# The audit chain

* **`tampering_detected`** : in an accepted log with distinct hashes, a changed, cleared or deleted
  row is found when another hashed row follows, and so are two hashed rows exchanged; and appends
  that run one after another keep the log accepted, as long as their entries can be read back.
* **`tip_commits_iff`** : two accepted logs agree on what is hashed exactly if they have the same
  newest hash and name the same hashes; the newest hash alone covers one row.
* **`appends_accepted_iff`** : appends in any interleaving leave an accepted log exactly if at every
  insert the newest hash is the one that was newest when its append looked.
-/

namespace FerrumGate.Audit

open Interleave Serde

/-! ## A log to look at -/

namespace AuditSample

/-- A time as its digits. -/
def epochText (t : Int) : String := String.ofList (writeInteger t)

def parseEpoch (s : String) : Except String Int :=
  match scanNumber s.toList with
  | some (lexeme, []) =>
    .ok (if lexeme.negative then -(Nat.ofDigitChars 10 lexeme.integer 0 : Int)
      else Nat.ofDigitChars 10 lexeme.integer 0)
  | _ => .error "premature end of input"

theorem parseEpoch_epochText (t : Int) : parseEpoch (epochText t) = .ok t := by
  have hmagnitude : Nat.ofDigitChars 10 (Nat.toDigits 10 t.natAbs) 0 = t.natAbs :=
    Nat.ofDigitChars_toDigits (by decide) (by decide)
  rw [parseEpoch, epochText, String.toList_ofList, scanNumber_integer]
  simp only [hmagnitude, decide_eq_true_eq, Except.ok.injEq]
  split_ifs with hneg <;> omega

/-- Texts stand for their own hashes. -/
def env : AuditEnv where
  sha256Hex := String.ofList
  toRfc3339 := epochText
  parseRfc3339 := parseEpoch
  reader := literal
  jsonError := fun _ => "recursion limit exceeded"
  toRfc3339_injective := by
    intro t t' h
    have hparse := parseEpoch_epochText t
    rw [h, parseEpoch_epochText] at hparse
    exact (Except.ok.inj hparse).symm
  parse_toRfc3339 := fun t _ => parseEpoch_epochText t

theorem collisionFree : Function.Injective env.sha256Hex := by
  intro a b h
  have htext : (String.ofList a).toList = (String.ofList b).toList := congrArg String.toList h
  simpa only [String.toList_ofList] using htext

/-- Somebody creates a token. -/
def creates (actorId : String) (metadata : Option Document) : AuditContent where
  actorId := actorId
  action := .tokenCreate
  resourceType := .token
  resourceId := "t1"
  result := "ok"
  metadata := metadata
  createdAt := 1767225600000000000

theorem year_creates (actorId : String) (metadata : Option Document) :
    fourDigitYear (creates actorId metadata).createdAt := by
  change -62167219200000000000 ≤ (1767225600000000000 : Int) ∧
    (1767225600000000000 : Int) < 253402300800000000000
  decide

theorem plain_creates (actorId : String) : Plain env (creates actorId none) where
  year := year_creates actorId none
  kept := by
    rintro d ⟨⟩
  depth := by
    rintro d ⟨⟩

/-- A row from before there were hashes. -/
def legacyRow : AuditRow :=
  { entryColumns env (creates "root" none) none with id := 0, contentHash := none }

theorem legacyRow_sound : Sound env legacyRow.toAuditColumns := by
  refine ⟨creates "root" none, readContent_columns (plain_creates "root") none, ?_⟩
  rintro hash ⟨⟩

/-- Arrays in arrays. -/
def nested : Nat → Value
  | 0 => .null
  | n + 1 => .arr (.cons (nested n) .nil)

theorem nested_write (n : Nat) : (nested (n + 1)).write = '[' :: ((nested n).write ++ [']']) := by
  rw [nested, Value.write, Items.write]

theorem nested_ordered (n : Nat) : (nested n).Ordered := by
  induction n with
  | zero =>
    rw [nested, Value.Ordered] <;> simp
  | succ n ih =>
    rw [nested, Value.Ordered, Items.Ordered, Items.Ordered]
    exact ⟨ih, trivial⟩

/-- One array more than the reader goes. -/
def deep : Document := ⟨nested depthLimit, nested_ordered depthLimit⟩

theorem nested_integral (n : Nat) : (nested n).integral = true := by
  induction n with
  | zero => rfl
  | succ n ih =>
    rw [nested, Value.integral, Items.integral, ih]
    rfl

/-- The reader stops at its limit. -/
theorem nested_unread (r : Reader) (n : Nat) :
    ∀ fuel depth rest, 0 < depth → depth ≤ n →
      readValue r fuel depth ((nested n).write ++ rest) = none := by
  induction n with
  | zero =>
    intro fuel depth rest hpos hle
    omega
  | succ n ih =>
    intro fuel depth rest hpos hle
    have harray : ∀ fuel, readArray r fuel depth ((nested n).write ++ [']'] ++ rest) = none := by
      intro fuel
      cases fuel with
      | zero => rw [readArray]
      | succ fuel =>
        by_cases hone : depth ≤ 1
        · rw [readArray, if_pos hone]
        · obtain ⟨c, tail, hwrite, hspace, hend⟩ := write_head (nested n)
          have hinner := ih fuel (depth - 1) ([']'] ++ rest) (by omega) (by omega)
          rw [List.append_assoc, readArray, if_neg hone]
          rw [hwrite, List.cons_append] at hinner ⊢
          rw [skipSpace_cons hspace]
          split
          · next heq => exact absurd (List.cons.inj heq).1 hend
          · rw [hinner]
            rfl
    cases fuel with
    | zero => rw [readValue]
    | succ fuel =>
      rw [nested_write, List.cons_append, readValue_array, harray]
      rfl

theorem nested_fromStr (r : Reader) : r.fromStr (nested depthLimit).write = none := by
  have hread := nested_unread r depthLimit (4 * (nested depthLimit).write.length + 4) depthLimit []
    (by decide) le_rfl
  rw [List.append_nil] at hread
  rw [Reader.fromStr, Reader.readAll, hread]
  rfl

end AuditSample

/-! ## Tampering -/

section Tampering

variable {env : AuditEnv} {before between after : List AuditRow} {row row' : AuditRow}

/-- A later hashed row is a later link. -/
theorem links_later (h : ∃ later ∈ after, later.contentHash.isSome = true) :
    ∃ link rest, links after = link :: rest := by
  obtain ⟨later, hmem, hhash⟩ := h
  obtain ⟨hash, hhash⟩ := Option.isSome_iff_exists.1 hhash
  have hlink : (⟨hash, later.previousHash⟩ : Chain.Link String) ∈ links after := by
    refine List.mem_filterMap.2 ⟨later, hmem, ?_⟩
    rw [hhash]
    rfl
  exact List.exists_cons_of_ne_nil (List.ne_nil_of_mem hlink)

/-- What is read from the two rows differs in a hashed field. -/
def Altered (env : AuditEnv) (row row' : AuditRow) : Prop :=
  ∀ entry entry', rowToEntry env row = .ok entry → rowToEntry env row' = .ok entry' →
    entry.toAuditContent.hashed ≠ entry'.toAuditContent.hashed

/-- Sound rows that were altered have different hashes. -/
theorem altered_hash_ne (hcollision : Function.Injective env.sha256Hex) {hash hash' : String}
    (haltered : Altered env row row') (hsound : Sound env row.toAuditColumns)
    (hsound' : Sound env row'.toAuditColumns) (hhash : row.contentHash = some hash)
    (hhash' : row'.contentHash = some hash') : hash' ≠ hash := by
  obtain ⟨content, hread, hcomputed⟩ := hsound
  obtain ⟨content', hread', hcomputed'⟩ := hsound'
  rw [hcomputed hash hhash, hcomputed' hash' hhash']
  intro heq
  refine haltered _ _ (by rw [rowToEntry, hread]; rfl) (by rw [rowToEntry, hread']; rfl) ?_
  exact ((contentHash_injective hcollision).1 heq).symm

end Tampering

/-! ## Appends one after another -/

/-- The table after a call of `append` that nobody interrupts; the inputs say which of its
statements fail. -/
def appended (env : AuditEnv) (t : AuditTable) (call : AuditContent × (Nat → Bool)) : AuditTable :=
  ((Config.start t fun _ => append env call.1).run execAudit (Interleave.alone 0 call.2 2)).world

def appendAll (env : AuditEnv) (t : AuditTable) (calls : List (AuditContent × (Nat → Bool))) :
    AuditTable := calls.foldl (appended env) t

/-- Such a call adds its row behind the newest hash, or nothing. -/
theorem appended_cases (env : AuditEnv) (t : AuditTable) (call : AuditContent × (Nat → Bool)) :
    appended env t call = t ∨
      appended env t call = t.insert (entryColumns env call.1 (latestHash t.rows)) := by
  obtain ⟨e, fails⟩ := call
  simp only [appended, Interleave.alone, Config.run, Config.step, Config.start, append, execAudit]
  cases hselect : fails 0 with
  | true => exact .inl rfl
  | false =>
    cases hinsert : fails 1 with
    | true => exact .inl (by simp)
    | false => exact .inr (by simp)

/-- A row that joins at the end. -/
theorem insert_accepted {env : AuditEnv} {t : AuditTable} {e : AuditContent}
    {previousHash : Option String} :
    verifyChain env (t.insert (entryColumns env e previousHash)).rows = .ok () ↔
      verifyChain env t.rows = .ok () ∧ previousHash = latestHash t.rows ∧ ReadsBack env e :=
  verifyChain_concat rfl

theorem appendAll_accepted {env : AuditEnv} {t : AuditTable}
    {calls : List (AuditContent × (Nat → Bool))} (h : verifyChain env t.rows = .ok ())
    (hplain : ∀ call ∈ calls, Plain env call.1) :
    verifyChain env (appendAll env t calls).rows = .ok () := by
  induction calls generalizing t with
  | nil => exact h
  | cons call calls ih =>
    obtain ⟨hcall, hcalls⟩ := List.forall_mem_cons.1 hplain
    refine ih ?_ hcalls
    rcases appended_cases env t call with hsame | hadded
    · rw [hsame]
      exact h
    · rw [hadded]
      exact insert_accepted.2 ⟨h, rfl, readsBack hcall⟩

/-! ## What an accepted log shows -/

/-- **A log whose rows were tampered with is not accepted**, and appends one after another keep a
log accepted, the empty one to begin with. -/
theorem tampering_detected (env : AuditEnv) (hcollision : Function.Injective env.sha256Hex)
    (t : AuditTable) (haccepted : verifyChain env t.rows = .ok ())
    (hdistinct : (t.rows.filterMap fun row => row.contentHash).Nodup) :
    (∀ before row after, t.rows = before ++ row :: after → row.contentHash.isSome = true →
      (∃ later ∈ after, later.contentHash.isSome = true) →
        (∀ row', Altered env row row' → verifyChain env (before ++ row' :: after) ≠ .ok ()) ∧
        (∀ row', row'.contentHash = none → verifyChain env (before ++ row' :: after) ≠ .ok ()) ∧
        verifyChain env (before ++ after) ≠ .ok ()) ∧
    (∀ before row between row' after, t.rows = before ++ row :: (between ++ row' :: after) →
      row.contentHash.isSome = true → row'.contentHash.isSome = true →
        verifyChain env (before ++ { row' with id := row.id } ::
          (between ++ { row with id := row'.id } :: after)) ≠ .ok ()) ∧
    (∀ start : AuditTable, verifyChain env start.rows = .ok () → ∀ calls,
      (∀ call ∈ calls, Plain env call.1) →
        verifyChain env (appendAll env start calls).rows = .ok ()) := by
  obtain ⟨hsound, hlinked⟩ := verifyChain_ok.1 haccepted
  rw [← links_hashes] at hdistinct
  refine ⟨?_, ?_, fun start hstart calls hplain => appendAll_accepted hstart hplain⟩
  · intro before row after hrows hhashed hlater
    obtain ⟨hash, hhash⟩ := Option.isSome_iff_exists.1 hhashed
    obtain ⟨link, rest, hrest⟩ := links_later hlater
    rw [hrows, links_append, links_hashed hhash, hrest] at hlinked hdistinct
    -- without the row's link the next one names a hash that is not before it
    have herased : ¬ Chain.Linked none (links (before ++ after)) := by
      rw [links_append, hrest]
      exact Chain.not_linked_erase hlinked hdistinct
    have hcleared : ∀ row', row'.contentHash = none →
        verifyChain env (before ++ row' :: after) ≠ .ok () := by
      intro row' hnone hok
      have hlinked' := (verifyChain_ok.1 hok).2
      rw [links_append, links_legacy hnone, ← links_append] at hlinked'
      exact herased hlinked'
    refine ⟨?_, hcleared, fun hok => herased (verifyChain_ok.1 hok).2⟩
    intro row' haltered hok
    cases hhash' : row'.contentHash with
    | none => exact hcleared row' hhash' hok
    | some hash' =>
      obtain ⟨hsound', hlinked'⟩ := verifyChain_ok.1 hok
      have hne : hash' ≠ hash :=
        altered_hash_ne hcollision haltered
          (hsound row (by rw [hrows]; exact List.mem_append_right _ List.mem_cons_self))
          (hsound' row' (List.mem_append_right _ List.mem_cons_self)) hhash hhash'
      rw [links_append, links_hashed hhash', hrest] at hlinked'
      exact Chain.not_linked_replace hlinked hne hlinked'
  · intro before row between row' after hrows hhashed hhashed' hok
    obtain ⟨hash, hhash⟩ := Option.isSome_iff_exists.1 hhashed
    obtain ⟨hash', hhash'⟩ := Option.isSome_iff_exists.1 hhashed'
    rw [hrows, links_append, links_hashed hhash, links_append, links_hashed hhash']
      at hlinked hdistinct
    have hlinked' := (verifyChain_ok.1 hok).2
    rw [links_append,
      links_hashed (show ({ row' with id := row.id } : AuditRow).contentHash = _ from hhash'),
      links_append,
      links_hashed (show ({ row with id := row'.id } : AuditRow).contentHash = _ from hhash)]
      at hlinked'
    exact Chain.not_linked_exchange hlinked hdistinct hlinked'

namespace AuditSample

/-- The log of two appends. -/
def rows (first second : String) : List AuditRow :=
  (appendAll env ⟨[], 0⟩
    [(creates first none, fun _ => false), (creates second none, fun _ => false)]).rows

theorem rows_single (e : AuditContent) :
    (appendAll env ⟨[], 0⟩ [(e, fun _ => false)]).rows = [⟨entryColumns env e none, 1⟩] := rfl

theorem rows_accepted (first second : String) : verifyChain env (rows first second) = .ok () := by
  refine appendAll_accepted rfl ?_
  intro call hcall
  rcases List.mem_cons.1 hcall with rfl | hcall
  · exact plain_creates first
  · obtain rfl := List.mem_singleton.1 hcall
    exact plain_creates second

theorem links_rows (first second : String) :
    links (rows first second) =
      [⟨computeContentHash env (creates first none), none⟩,
        ⟨computeContentHash env (creates second none),
          some (computeContentHash env (creates first none))⟩] := rfl

theorem length_rows (first second : String) : (links (rows first second)).length = 2 := rfl

theorem latestHash_rows (first second : String) :
    latestHash (rows first second) = some (computeContentHash env (creates second none)) := by
  rw [latestHash_eq, links_rows]
  rfl

theorem hash_ne {first second : String} (h : first ≠ second) :
    computeContentHash env (creates first none) ≠ computeContentHash env (creates second none) := by
  intro heq
  have hhashed := (contentHash_injective collisionFree).1 heq
  exact h (congrArg AuditContent.actorId hhashed)

end AuditSample

/-- Without its first row the log is rejected. -/
theorem missing_row_detected :
    verifyChain AuditSample.env (AuditSample.rows "alice" "bob").tail ≠ .ok () := by
  have hdistinct : ((AuditSample.rows "alice" "bob").filterMap fun row => row.contentHash).Nodup := by
    rw [← links_hashes, AuditSample.links_rows]
    refine List.nodup_cons.2 ⟨?_, List.nodup_singleton _⟩
    rw [List.map_singleton, List.mem_singleton]
    exact AuditSample.hash_ne (by decide)
  have hdetected := tampering_detected AuditSample.env AuditSample.collisionFree
    ⟨AuditSample.rows "alice" "bob", 2⟩ (AuditSample.rows_accepted _ _) hdistinct
  exact (hdetected.1 [] _ (AuditSample.rows "alice" "bob").tail rfl rfl
    ⟨_, List.mem_singleton_self _, rfl⟩).2.2

/-- One append, and the log is rejected: its metadata are nested too deep to be read back. -/
theorem deep_metadata_rejected :
    AuditSample.deep.value.integral = true ∧
      verifyChain AuditSample.env (appendAll AuditSample.env ⟨[], 0⟩
        [(AuditSample.creates "alice" (some AuditSample.deep), fun _ => false)]).rows =
        .error (.other ("invalid metadata: " ++ "recursion limit exceeded")) := by
  refine ⟨AuditSample.nested_integral depthLimit, ?_⟩
  have hrefused : AuditSample.env.reader.fromStr AuditSample.deep.toText = none :=
    AuditSample.nested_fromStr literal
  have hread := readContent_refused (AuditSample.year_creates "alice" (some AuditSample.deep)) rfl
    hrefused none
  rw [AuditSample.rows_single, verifyChain, verifyRows, rowToEntry, hread]
  rfl

/-- The hashed fields of the hashed rows. -/
def hashedContents (env : AuditEnv) (rows : List AuditRow) : List AuditContent :=
  rows.filterMap fun row =>
    if row.contentHash.isSome then
      (rowToEntry env row).toOption.map fun entry => entry.toAuditContent.hashed
    else none

/-- The hashes that the hashed rows name. -/
def previousHashes (rows : List AuditRow) : List (Option String) :=
  (links rows).map Chain.Link.previous

/-- The stored hashes of sound rows are those of their contents. -/
theorem hashes_contents {env : AuditEnv} {rows : List AuditRow}
    (hsound : ∀ row ∈ rows, Sound env row.toAuditColumns) :
    (rows.filterMap fun row => row.contentHash) =
      (hashedContents env rows).map (computeContentHash env) := by
  rw [hashedContents, List.map_filterMap]
  refine List.filterMap_congr fun row hrow => ?_
  obtain ⟨content, hread, hhash⟩ := hsound row hrow
  have hentry : rowToEntry env row = .ok
      ⟨content, row.id, row.contentHash, row.previousHash⟩ := by
    rw [rowToEntry, hread]
    rfl
  cases hcontent : row.contentHash with
  | none => rfl
  | some hash =>
    rw [Option.isSome_some, if_pos rfl, hentry, hhash hash hcontent]
    rfl

theorem hashedContents_hashed (env : AuditEnv) (rows : List AuditRow) :
    (hashedContents env rows).map AuditContent.hashed = hashedContents env rows := by
  have hself : ∀ e ∈ hashedContents env rows, e.hashed = id e := by
    intro e he
    obtain ⟨row, -, hrow⟩ := List.mem_filterMap.1 he
    split_ifs at hrow
    obtain ⟨entry, -, rfl⟩ := Option.map_eq_some_iff.1 hrow
    rfl
  rw [List.map_congr_left hself, List.map_id]

theorem map_hashed_eq {env : AuditEnv} (hcollision : Function.Injective env.sha256Hex)
    {l l' : List AuditContent}
    (h : l.map (computeContentHash env) = l'.map (computeContentHash env)) :
    l.map AuditContent.hashed = l'.map AuditContent.hashed := by
  induction l generalizing l' with
  | nil =>
    cases l' with
    | nil => rfl
    | cons e' l' => cases h
  | cons e l ih =>
    cases l' with
    | nil => cases h
    | cons e' l' =>
      obtain ⟨hhead, htail⟩ := List.cons.inj h
      rw [List.map_cons, List.map_cons, (contentHash_injective hcollision).1 hhead, ih htail]

/-- Without collisions, equal hashes are equal contents. -/
theorem hashes_eq_iff {env : AuditEnv} (hcollision : Function.Injective env.sha256Hex)
    {rows rows' : List AuditRow} (hsound : ∀ row ∈ rows, Sound env row.toAuditColumns)
    (hsound' : ∀ row ∈ rows', Sound env row.toAuditColumns) :
    (links rows).map Chain.Link.hash = (links rows').map Chain.Link.hash ↔
      hashedContents env rows = hashedContents env rows' := by
  rw [links_hashes, links_hashes, hashes_contents hsound, hashes_contents hsound']
  constructor
  · intro h
    rw [← hashedContents_hashed env rows, ← hashedContents_hashed env rows']
    exact map_hashed_eq hcollision h
  · intro h
    rw [h]

/-- **What two accepted logs have to share.** -/
theorem tip_commits_iff (env : AuditEnv) (hcollision : Function.Injective env.sha256Hex)
    (rows rows' : List AuditRow) (h : verifyChain env rows = .ok ())
    (h' : verifyChain env rows' = .ok ()) :
    hashedContents env rows = hashedContents env rows' ↔
      latestHash rows = latestHash rows' ∧ previousHashes rows = previousHashes rows' := by
  obtain ⟨hsound, hlinked⟩ := verifyChain_ok.1 h
  obtain ⟨hsound', hlinked'⟩ := verifyChain_ok.1 h'
  rw [← hashes_eq_iff hcollision hsound hsound', latestHash_eq, latestHash_eq]
  constructor
  · intro hhashes
    obtain ⟨hprevious, hlast⟩ := Chain.previous_eq hlinked hlinked' hhashes
    exact ⟨hlast, hprevious⟩
  · rintro ⟨hlast, hprevious⟩
    exact Chain.hashes_eq hlinked hlinked' hprevious hlast

/-- A legacy row changes nothing. -/
theorem legacy_row_ignored :
    hashedContents AuditSample.env (AuditSample.rows "alice" "bob") =
      hashedContents AuditSample.env (AuditSample.legacyRow :: AuditSample.rows "alice" "bob") := by
  have hlinks : links (AuditSample.legacyRow :: AuditSample.rows "alice" "bob") =
      links (AuditSample.rows "alice" "bob") := links_legacy rfl _
  have haccepted := verifyChain_ok.1 (AuditSample.rows_accepted "alice" "bob")
  have hlegacy : verifyChain AuditSample.env
      (AuditSample.legacyRow :: AuditSample.rows "alice" "bob") = .ok () := by
    rw [verifyChain_ok, List.forall_mem_cons, hlinks]
    exact ⟨⟨AuditSample.legacyRow_sound, haccepted.1⟩, haccepted.2⟩
  refine (tip_commits_iff AuditSample.env AuditSample.collisionFree _ _
    (AuditSample.rows_accepted "alice" "bob") hlegacy).2 ⟨?_, ?_⟩
  · rw [latestHash_eq, latestHash_eq, hlinks]
  · rw [previousHashes, previousHashes, hlinks]

/-- Two accepted logs of two rows with the same newest hash, and different first rows. -/
theorem tip_forgets_first_row :
    Function.Injective AuditSample.env.sha256Hex ∧
    verifyChain AuditSample.env (AuditSample.rows "alice" "bob") = .ok () ∧
    verifyChain AuditSample.env (AuditSample.rows "mallory" "bob") = .ok () ∧
    (links (AuditSample.rows "alice" "bob")).length =
      (links (AuditSample.rows "mallory" "bob")).length ∧
    latestHash (AuditSample.rows "alice" "bob") = latestHash (AuditSample.rows "mallory" "bob") ∧
    hashedContents AuditSample.env (AuditSample.rows "alice" "bob") ≠
      hashedContents AuditSample.env (AuditSample.rows "mallory" "bob") := by
  have haccepted := AuditSample.rows_accepted "alice" "bob"
  have haccepted' := AuditSample.rows_accepted "mallory" "bob"
  refine ⟨AuditSample.collisionFree, haccepted, haccepted', ?_, ?_, ?_⟩
  · rw [AuditSample.length_rows, AuditSample.length_rows]
  · rw [AuditSample.latestHash_rows, AuditSample.latestHash_rows]
  · rw [Ne, ← hashes_eq_iff AuditSample.collisionFree (verifyChain_ok.1 haccepted).1
      (verifyChain_ok.1 haccepted').1, AuditSample.links_rows, AuditSample.links_rows]
    intro heq
    exact AuditSample.hash_ne (by decide) (List.cons.inj heq).1

/-! ## Appends in any interleaving -/

section Interleaved

variable {env : AuditEnv} {entries : Nat → AuditContent} {t : AuditTable}

/-- The store with an append for every process. -/
def appends (env : AuditEnv) (entries : Nat → AuditContent) (t : AuditTable) :
    Config AuditOp AuditOp.Result AuditTable (Except StoreError Unit) :=
  Config.start t fun p => append env (entries p)

/-- The turns that process `p` has had: did the store fail? -/
def turns (p : Nat) (s : List (Nat × Bool)) : List Bool :=
  (s.filter fun turn => turn.1 = p).map Prod.snd

/-- What was run before its first turn, which is the `SELECT`. -/
def beforeSelect (p : Nat) (s : List (Nat × Bool)) : List (Nat × Bool) :=
  s.takeWhile fun turn => turn.1 ≠ p

/-- Where the append of process `p` is. -/
def AtWork (env : AuditEnv) (entries : Nat → AuditContent) (t : AuditTable) (p : Nat)
    (s : List (Nat × Bool)) (prog : Prog AuditOp AuditOp.Result (Except StoreError Unit)) : Prop :=
  match turns p s with
  | [] => prog = append env (entries p)
  | [false] => prog = .perform (.insert (entryColumns env (entries p)
      (latestHash ((appends env entries t).run execAudit (beforeSelect p s)).world.rows))) .pure
  | _ => ∃ r, prog = .pure r

theorem turns_concat (p q : Nat) (i : Bool) (s : List (Nat × Bool)) :
    turns p (s ++ [(q, i)]) = if q = p then turns p s ++ [i] else turns p s := by
  by_cases h : q = p <;> simp [turns, h]

theorem beforeSelect_concat {p : Nat} {s : List (Nat × Bool)} (h : turns p s ≠ [])
    (turn : Nat × Bool) : beforeSelect p (s ++ [turn]) = beforeSelect p s := by
  induction s with
  | nil => exact absurd rfl h
  | cons first s ih =>
    by_cases hfirst : first.1 = p
    · simp [beforeSelect, hfirst]
    · have hrest : turns p s ≠ [] := by simpa [turns, hfirst] using h
      simpa [beforeSelect, hfirst] using ih hrest

theorem beforeSelect_first {p : Nat} {s : List (Nat × Bool)} (h : turns p s = []) (i : Bool) :
    beforeSelect p (s ++ [(p, i)]) = s := by
  have hother := List.filter_eq_nil_iff.mp (List.map_eq_nil_iff.mp h)
  rw [beforeSelect, List.takeWhile_append_of_pos (by simpa using hother)]
  simp

theorem AtWork.other {p q : Nat} {s : List (Nat × Bool)} {i : Bool}
    {prog : Prog AuditOp AuditOp.Result (Except StoreError Unit)}
    (h : AtWork env entries t p s prog) (hq : q ≠ p) :
    AtWork env entries t p (s ++ [(q, i)]) prog := by
  unfold AtWork at h ⊢
  rw [turns_concat, if_neg hq]
  split at h
  · exact h
  · next hturns =>
    rw [beforeSelect_concat (by simp [hturns])]
    exact h
  · exact h

theorem atWork (s : List (Nat × Bool)) (p : Nat) :
    AtWork env entries t p s (((appends env entries t).run execAudit s).procs p) := by
  induction s using List.reverseRecOn with
  | nil => exact rfl
  | append_singleton s x ih =>
    obtain ⟨q, i⟩ := x
    rw [Config.run_concat]
    by_cases hq : q = p
    swap
    · have hprocs : (((appends env entries t).run execAudit s).step execAudit q i).procs p =
          ((appends env entries t).run execAudit s).procs p := by
        rw [Config.step]
        split
        · rfl
        · exact if_neg (Ne.symm hq)
      rw [hprocs]
      exact ih.other hq
    subst hq
    unfold AtWork at ih ⊢
    rw [turns_concat, if_pos rfl, Config.step]
    split at ih
    · next hturns =>
      -- the `SELECT`
      rw [ih, hturns, beforeSelect_first hturns]
      cases i <;> simp [append, execAudit]
    · next hturns =>
      -- the insert
      rw [ih, hturns]
      simp
    · next hnone hone =>
      obtain ⟨r, hr⟩ := ih
      rw [hr]
      split
      · next hlonger => simp at hlonger
      · next hlonger => exact (hnone (by simpa using congrArg List.length hlonger)).elim
      · exact ⟨r, hr⟩

/-- The insert at this turn joins the chain: the newest hash is the one that was newest at the
`SELECT`, and the entry will be read back. -/
def Joins (env : AuditEnv) (entries : Nat → AuditContent) (t : AuditTable)
    (s : List (Nat × Bool)) (p : Nat) (fails : Bool) : Prop :=
  turns p s = [false] → fails = false →
    latestHash ((appends env entries t).run execAudit (beforeSelect p s)).world.rows =
        latestHash ((appends env entries t).run execAudit s).world.rows ∧
      ReadsBack env (entries p)

/-- One step keeps an accepted log accepted exactly if it joins. -/
theorem step_accepted (s : List (Nat × Bool)) (p : Nat) (fails : Bool) :
    verifyChain env (((appends env entries t).run execAudit s).step execAudit p fails).world.rows =
        .ok () ↔
      verifyChain env ((appends env entries t).run execAudit s).world.rows = .ok () ∧
        Joins env entries t s p fails := by
  have hwork := @atWork env entries t s p
  rw [Config.step]
  unfold AtWork at hwork
  split at hwork
  · next hturns =>
    rw [hwork]
    simp [Joins, hturns, append, execAudit]
  · next hturns =>
    rw [hwork]
    cases fails with
    | true => simp [Joins, execAudit]
    | false =>
      change verifyChain env (AuditTable.insert _ _).rows = .ok () ↔ _
      rw [insert_accepted]
      simp [Joins, hturns]
  · next hturns =>
    obtain ⟨r, hr⟩ := hwork
    rw [hr]
    exact ⟨fun h => ⟨h, fun hfirst => (hturns hfirst).elim⟩, And.left⟩

/-- **Which interleavings leave an accepted log.** -/
theorem appends_accepted_iff (env : AuditEnv) (entries : Nat → AuditContent) (t : AuditTable)
    (s : List (Nat × Bool)) :
    verifyChain env ((appends env entries t).run execAudit s).world.rows = .ok () ↔
      verifyChain env t.rows = .ok () ∧
        ∀ s₁ p fails s₂, s = s₁ ++ (p, fails) :: s₂ →
          Joins env entries t s₁ p fails := by
  induction s using List.reverseRecOn with
  | nil =>
    constructor
    · intro h
      refine ⟨h, fun s₁ p fails s₂ hs => ?_⟩
      exact absurd hs.symm (List.append_ne_nil_of_right_ne_nil _ (List.cons_ne_nil _ _))
    · exact fun h => h.1
  | append_singleton s x ih =>
    obtain ⟨q, i⟩ := x
    rw [Config.run_concat, step_accepted s q, ih, and_assoc]
    refine and_congr_right fun _ => ⟨?_, ?_⟩
    · rintro ⟨hold, hlast⟩ s₁ p fails s₂ hs
      rcases List.eq_nil_or_concat s₂ with rfl | ⟨s₂, y, rfl⟩
      · obtain ⟨rfl, hx⟩ := List.append_inj' hs rfl
        cases hx
        exact hlast
      · rw [List.concat_eq_append, ← List.cons_append, ← List.append_assoc] at hs
        exact hold s₁ p fails s₂ (List.append_inj' hs rfl).1
    · intro h
      refine ⟨fun s₁ p fails s₂ hs => h s₁ p fails (s₂ ++ [(q, i)]) ?_, h s q i [] rfl⟩
      rw [hs, List.append_assoc, List.cons_append]

end Interleaved

/-- Two appends to an empty log that both read before either inserts. -/
theorem concurrent_appends_rejected :
    verifyChain AuditSample.env
      ((appends AuditSample.env (fun p => AuditSample.creates (if p = 0 then "alice" else "bob") none)
        ⟨[], 0⟩).run execAudit [(0, false), (1, false), (0, false), (1, false)]).world.rows ≠
      .ok () := by
  intro hok
  have hlinked := (verifyChain_ok.1 hok).2
  -- the second row names no hash either
  cases hlinked.2.1

end FerrumGate.Audit
