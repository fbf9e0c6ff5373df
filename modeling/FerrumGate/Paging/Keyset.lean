import Mathlib.Data.List.Nodup
import Mathlib.Algebra.Order.Ring.Nat

/-!
# Pages and their cursors

A client that follows the cursor of each page until there is none (`follow`), and a server that cuts
pages off a list of rows. To know whether there is a next page the server fetches one row more than
the limit, and the key of the last row it keeps is the cursor.

* `follow_constant`: a server that does not look at the cursor.
* `follow_all_iff`: a server that serves the rows whose key is below the cursor, in an order that
  need not be the one of the keys.
-/

namespace Paging

variable {α κ ρ ε : Type}

/-! ## The client -/

/-- All the items, from a cursor on; nothing, if a page is refused or the pages do not end within
`fuel`. -/
def follow (fetch : Option κ → Except ε (List α × Option κ)) : Nat → Option κ → Option (List α)
  | 0, _ => none
  | fuel + 1, cursor =>
    match fetch cursor with
    | .error _ => none
    | .ok (items, none) => some items
    | .ok (items, some next) => (follow fetch fuel (some next)).map (items ++ ·)

/-- If the cursor is not looked at, the first page has to be the last one. -/
theorem follow_constant (page : Except ε (List α × Option κ)) (visited : List α) :
    (∃ fuel, follow (fun _ => page) fuel none = some visited) ↔ page = .ok (visited, none) := by
  have hnone : ∀ items next, page = .ok (items, some next) →
      ∀ fuel cursor, follow (fun _ => page) fuel cursor = none := by
    intro items next hpage fuel
    induction fuel with
    | zero => exact fun _ => rfl
    | succ fuel ih =>
      intro cursor
      simp only [follow, hpage]
      rw [← hpage, ih (some next)]
      rfl
  constructor
  · rintro ⟨fuel, h⟩
    cases fuel with
    | zero => cases h
    | succ fuel =>
      cases hpage : page with
      | error e =>
        simp only [follow, hpage] at h
        cases h
      | ok result =>
        obtain ⟨items, cursor⟩ := result
        cases cursor with
        | none =>
          simp only [follow, hpage] at h
          rw [Option.some.inj h]
        | some next =>
          rw [hnone items next hpage] at h
          cases h
  · rintro rfl
    exact ⟨1, rfl⟩

/-- Items that are made of the rows of another listing. -/
theorem follow_map {ε' : Type} (f : ρ → α) {fetch : Option κ → Except ε (List ρ × Option κ)}
    {fetch' : Option κ → Except ε' (List α × Option κ)}
    (h : ∀ cursor, ∃ rows next, fetch cursor = .ok (rows, next) ∧
      fetch' cursor = .ok (rows.map f, next)) (fuel : Nat) (cursor : Option κ) :
    follow fetch' fuel cursor = (follow fetch fuel cursor).map (List.map f) := by
  induction fuel generalizing cursor with
  | zero => rfl
  | succ fuel ih =>
    obtain ⟨rows, next, hfetch, hfetch'⟩ := h cursor
    unfold follow
    rw [hfetch, hfetch']
    cases next with
    | none => rfl
    | some next =>
      simp only [ih, Option.map_map]
      congr 1
      funext rest
      simp

/-! ## Cutting a page -/

/-- One item more than the limit was fetched, to know whether there are more. -/
def cut (limit : Nat) (key : α → κ) (items : List α) : List α × Option κ :=
  if limit < items.length then (items.dropLast, items.dropLast.getLast?.map key)
  else (items, none)

theorem cut_take_of_le {limit : Nat} (key : α → κ) {items : List α} (h : items.length ≤ limit) :
    cut limit key (items.take (limit + 1)) = (items, none) := by
  rw [List.take_of_length_le (by omega), cut, if_neg (by omega)]

theorem cut_take_of_lt {limit : Nat} (key : α → κ) {items : List α} (h : limit < items.length) :
    cut limit key (items.take (limit + 1)) =
      (items.take limit, (items.take limit).getLast?.map key) := by
  have hdrop : (items.take (limit + 1)).dropLast = items.take limit := by
    rw [List.dropLast_eq_take, List.length_take, List.take_take]
    congr 1
    omega
  rw [cut, if_pos (by rw [List.length_take]; omega), hdrop]

/-- Rows that are read one by one. -/
theorem mapM_eq_ok {read : ρ → Except ε α} {rows : List ρ} {items : List α} :
    rows.mapM read = .ok items ↔ List.Forall₂ (fun row item => read row = .ok item) rows items := by
  induction rows generalizing items with
  | nil =>
    rw [List.mapM_nil, List.forall₂_nil_left_iff]
    exact ⟨fun h => (Except.ok.inj h).symm, fun h => h ▸ rfl⟩
  | cons row rows ih =>
    rw [List.mapM_cons, List.forall₂_cons_left_iff]
    constructor
    · intro h
      cases hrow : read row with
      | error e =>
        rw [hrow] at h
        cases h
      | ok item =>
        cases hrows : rows.mapM read with
        | error e =>
          rw [hrow, hrows] at h
          cases h
        | ok rest =>
          rw [hrow, hrows] at h
          exact ⟨item, rest, rfl, ih.1 hrows, (Except.ok.inj h).symm⟩
    · rintro ⟨item, rest, hrow, hrest, rfl⟩
      rw [hrow, ih.2 hrest]
      rfl

theorem exists_of_mapM_eq_ok {read : ρ → Except ε α} {rows : List ρ} {items : List α}
    (h : rows.mapM read = .ok items) : ∀ row ∈ rows, ∃ item, read row = .ok item := by
  have hread := mapM_eq_ok.1 h
  clear h
  induction hread with
  | nil => exact fun row hrow => absurd hrow List.not_mem_nil
  | cons hrow _ ih => exact List.forall_mem_cons.2 ⟨⟨_, hrow⟩, ih⟩

/-! ## Rows below the cursor -/

section Keyset

variable [LinearOrder κ] (key : ρ → κ) (limit : Nat) (rows : List ρ)

/-- The rows that the condition on the cursor leaves. -/
def below (cursor : Option κ) : List ρ := rows.filter fun row => cursor.all (key row < ·)

def page (cursor : Option κ) : Except Empty (List ρ × Option κ) :=
  .ok (cut limit key ((below key rows cursor).take (limit + 1)))

/-- At the end of every page but the last one, the keys of the rows fall: from all that precede to
the last row of the page, and from there to all that follow. -/
def Aligned : Prop :=
  ∀ front last behind, rows = front ++ last :: behind → limit ∣ front.length + 1 → behind ≠ [] →
    (∀ row ∈ front, key last < key row) ∧ ∀ row ∈ behind, key row < key last

variable {key limit rows}

theorem follow_page_of_le {fuel : Nat} {cursor : Option κ}
    (h : (below key rows cursor).length ≤ limit) :
    follow (page key limit rows) (fuel + 1) cursor = some (below key rows cursor) := by
  simp only [follow, page, cut_take_of_le key h]

theorem follow_page_of_lt {fuel : Nat} {cursor : Option κ} {first later : List ρ} {last : ρ}
    (hrows : below key rows cursor = first ++ last :: later) (hlimit : first.length + 1 = limit)
    (hlater : later ≠ []) :
    follow (page key limit rows) (fuel + 1) cursor =
      (follow (page key limit rows) fuel (some (key last))).map
        ((first ++ [last]) ++ ·) := by
  have hpos : 0 < later.length := List.length_pos_iff.2 hlater
  have hlt : limit < (below key rows cursor).length := by
    rw [hrows, List.length_append, List.length_cons]
    omega
  have htake : (below key rows cursor).take limit = first ++ [last] := by
    rw [hrows, List.append_cons, ← hlimit]
    exact List.take_left' (by simp)
  simp only [follow, page, cut_take_of_lt key hlt, htake, List.getLast?_append,
    List.getLast?_singleton, Option.some_or, Option.map_some]

/-- A list longer than a page has a row that ends its first page. -/
theorem exists_first_page {rest : List ρ} (hlimit : 0 < limit) (h : limit < rest.length) :
    ∃ first last later, rest = first ++ last :: later ∧ first.length + 1 = limit ∧ later ≠ [] := by
  obtain ⟨n, rfl⟩ : ∃ n, limit = n + 1 := ⟨limit - 1, by omega⟩
  have hlast : n < rest.length := by omega
  refine ⟨rest.take n, rest[n], rest.drop (n + 1), ?_, ?_, ?_⟩
  · rw [← List.drop_eq_getElem_cons hlast, List.take_append_drop]
  · rw [List.length_take]
    omega
  · rw [← List.length_pos_iff, List.length_drop]
    omega

/-! ### Rows that are all visited -/

/-- The rows behind the end of a page are those below the cursor. -/
theorem below_eq_behind {front behind : List ρ} {last : ρ} (hrows : rows = front ++ last :: behind)
    (hfront : ∀ row ∈ front, key last < key row) (hbehind : ∀ row ∈ behind, key row < key last) :
    below key rows (some (key last)) = behind := by
  have hnone : front.filter (fun row => (some (key last)).all (key row < ·)) = [] :=
    List.filter_eq_nil_iff.2 fun row hrow => by simpa using le_of_lt (hfront row hrow)
  have hall : behind.filter (fun row => (some (key last)).all (key row < ·)) = behind :=
    List.filter_eq_self.2 fun row hrow => by simpa using hbehind row hrow
  rw [below, hrows, List.filter_append, List.filter_cons, hnone, hall]
  simp

/-- Pages that are aligned visit all that is left, from any end of a page on. -/
theorem Aligned.follow (hlimit : 0 < limit) (h : Aligned key limit rows) (done : List ρ)
    {rest : List ρ} {cursor : Option κ} (hrows : rows = done ++ rest) (hdone : limit ∣ done.length)
    (hbelow : below key rows cursor = rest) :
    ∃ fuel, follow (page key limit rows) fuel cursor = some rest := by
  induction hlength : rest.length using Nat.strong_induction_on generalizing done rest cursor with
  | _ n ih =>
    by_cases hle : rest.length ≤ limit
    · exact ⟨1, hbelow ▸ follow_page_of_le (hbelow ▸ hle)⟩
    · obtain ⟨first, last, later, rfl, hfirst, hlater⟩ := exists_first_page hlimit (not_le.1 hle)
      have hsplit : rows = (done ++ first) ++ last :: later := by rw [hrows, List.append_assoc]
      have hdvd : limit ∣ (done ++ first).length + 1 := by
        rw [List.length_append, Nat.add_assoc, hfirst]
        exact Nat.dvd_add hdone (Nat.dvd_refl _)
      obtain ⟨hfront, hbehind⟩ := h _ _ _ hsplit hdvd hlater
      have hshorter : later.length < n := by
        rw [← hlength, List.length_append, List.length_cons]
        omega
      obtain ⟨fuel, hfuel⟩ := ih later.length hshorter (done ++ first ++ [last])
        (by rw [hsplit]; simp) (by simpa [Nat.add_assoc] using hdvd)
        (below_eq_behind hsplit hfront hbehind) rfl
      refine ⟨fuel + 1, ?_⟩
      rw [follow_page_of_lt hbelow hfirst hlater, hfuel]
      simp

/-! ### Only such rows are -/

theorem mem_below_some {cursor : κ} {row : ρ} :
    row ∈ below key rows (some cursor) ↔ row ∈ rows ∧ key row < cursor := by
  simp [below]

/-- What is visited from a cursor on is below it. -/
theorem mem_below_of_follow {fuel : Nat} {cursor : Option κ} {visited : List ρ}
    (h : follow (page key limit rows) fuel cursor = some visited) :
    ∀ row ∈ visited, row ∈ below key rows cursor := by
  induction fuel generalizing cursor visited with
  | zero => cases h
  | succ fuel ih =>
    by_cases hle : (below key rows cursor).length ≤ limit
    · rw [follow_page_of_le hle] at h
      rw [Option.some.inj h]
      exact fun _ hrow => hrow
    · rcases Nat.eq_zero_or_pos limit with rfl | hlimit
      · -- an empty page has no last row to go on from
        simp only [follow, page, cut_take_of_lt key (not_le.1 hle), List.take_zero,
          List.getLast?_nil, Option.map_none, Option.some.injEq] at h
        exact h ▸ fun _ hrow => absurd hrow List.not_mem_nil
      · obtain ⟨first, last, later, heq, hfirst, hlater⟩ := exists_first_page hlimit (not_le.1 hle)
        rw [follow_page_of_lt heq hfirst hlater, Option.map_eq_some_iff] at h
        obtain ⟨rest, hrest, rfl⟩ := h
        have hlast : last ∈ below key rows cursor := by simp [heq]
        intro row hrow
        rcases List.mem_append.1 hrow with hrow | hrow
        · rw [heq, List.append_cons]
          exact List.mem_append_left _ hrow
        · obtain ⟨hmem, hlt⟩ := mem_below_some.1 (ih hrest row hrow)
          cases cursor with
          | none => exact List.mem_filter.2 ⟨hmem, rfl⟩
          | some cursor => exact mem_below_some.2 ⟨hmem, lt_trans hlt (mem_below_some.1 hlast).2⟩

/-- The first row below the cursor is visited first. -/
theorem head_of_follow (hlimit : 0 < limit) {fuel : Nat} {cursor : Option κ} {visited : List ρ}
    (h : follow (page key limit rows) fuel cursor = some visited) :
    visited.head? = (below key rows cursor).head? := by
  cases fuel with
  | zero => cases h
  | succ fuel =>
    by_cases hle : (below key rows cursor).length ≤ limit
    · rw [follow_page_of_le hle] at h
      rw [Option.some.inj h]
    · obtain ⟨first, last, later, heq, hfirst, hlater⟩ := exists_first_page hlimit (not_le.1 hle)
      rw [follow_page_of_lt heq hfirst hlater, Option.map_eq_some_iff] at h
      obtain ⟨rest, hrest, rfl⟩ := h
      rw [heq]
      cases first <;> simp

/-- If all that is left is visited, the keys fall at the end of the page. -/
theorem falls_of_follow (hkeys : (rows.map key).Nodup) (hlimit : 0 < limit) {fuel : Nat}
    {done first later : List ρ} {last : ρ} (hrows : rows = done ++ (first ++ last :: later))
    (hdone : ∀ row ∈ done, key last < key row)
    (h : follow (page key limit rows) fuel (some (key last)) = some later) :
    (∀ row ∈ first, key last < key row) ∧ ∀ row ∈ later, key row < key last := by
  have hbehind : ∀ row ∈ later, key row < key last := fun row hrow =>
    (mem_below_some.1 (mem_below_of_follow h row hrow)).2
  have hne : ∀ row ∈ first, ∀ other ∈ last :: later, key row ≠ key other := by
    rw [hrows, List.map_append, List.map_append] at hkeys
    intro row hrow other hother
    exact (List.nodup_append.1 (List.nodup_append.1 hkeys).2.1).2.2 _ (List.mem_map_of_mem hrow) _
      (List.mem_map_of_mem hother)
  have hbelow : below key rows (some (key last)) =
      first.filter (fun row => (some (key last)).all (key row < ·)) ++ later := by
    have hnone : done.filter (fun row => (some (key last)).all (key row < ·)) = [] :=
      List.filter_eq_nil_iff.2 fun row hrow => by simpa using le_of_lt (hdone row hrow)
    have hall : later.filter (fun row => (some (key last)).all (key row < ·)) = later :=
      List.filter_eq_self.2 fun row hrow => by simpa using hbehind row hrow
    rw [below, hrows, List.filter_append, List.filter_append, List.filter_cons, hnone, hall]
    simp
  have hhead := head_of_follow hlimit h
  rw [hbelow] at hhead
  refine ⟨fun row hrow => ?_, hbehind⟩
  by_contra hlow
  have hlt : key row < key last := lt_of_le_of_ne (not_lt.1 hlow) (hne row hrow last (by simp))
  -- a lower row of this page would come up again, in front of the rows that follow
  have hmem : row ∈ first.filter (fun row => (some (key last)).all (key row < ·)) :=
    List.mem_filter.2 ⟨hrow, by simpa using hlt⟩
  obtain ⟨again, others, heq⟩ := List.exists_cons_of_ne_nil (List.ne_nil_of_mem hmem)
  rw [heq, List.cons_append, List.head?_cons] at hhead
  have hagain : again ∈ first := List.mem_of_mem_filter (heq ▸ List.mem_cons_self)
  exact hne again hagain again (List.mem_cons_of_mem _ (List.mem_of_mem_head? hhead)) rfl

/-- If all that is left is visited, it is aligned. -/
theorem aligned_of_follow (hkeys : (rows.map key).Nodup) (hlimit : 0 < limit) {fuel : Nat}
    (done : List ρ) {rest : List ρ} {cursor : Option κ} (hrows : rows = done ++ rest)
    (hdone : ∀ row ∈ done, ∀ other ∈ rest, key other < key row)
    (hbelow : below key rows cursor = rest)
    (h : follow (page key limit rows) fuel cursor = some rest) : Aligned key limit rest := by
  induction fuel generalizing done rest cursor with
  | zero => cases h
  | succ fuel ih =>
    intro front final behind hrest hdvd hbehind
    have hlong : limit < rest.length := by
      have := Nat.le_of_dvd (Nat.succ_pos _) hdvd
      have := List.length_pos_iff.2 hbehind
      rw [hrest, List.length_append, List.length_cons]
      omega
    obtain ⟨first, last, later, rfl, hfirst, hlater⟩ := exists_first_page hlimit hlong
    rw [follow_page_of_lt hbelow hfirst hlater, Option.map_eq_some_iff] at h
    obtain ⟨visited, hvisited, heq⟩ := h
    rw [List.append_assoc, List.singleton_append, List.append_cancel_left_eq, List.cons.injEq]
      at heq
    obtain ⟨-, rfl⟩ := heq
    have hdoneLast : ∀ row ∈ done, key last < key row := fun row hrow =>
      hdone row hrow last (by simp)
    obtain ⟨hfalls, hlower⟩ := falls_of_follow hkeys hlimit hrows hdoneLast hvisited
    have hsplit : rows = (done ++ first) ++ last :: visited := by rw [hrows, List.append_assoc]
    have hfront : ∀ row ∈ done ++ first, key last < key row := by
      intro row hrow
      exact (List.mem_append.1 hrow).elim (hdoneLast row) (hfalls row)
    have hrest' := ih (done ++ first ++ [last]) (by rw [hsplit]; simp)
      (fun row hrow other hother => by
        rcases List.mem_append.1 hrow with hrow | hrow
        · exact lt_trans (hlower other hother) (hfront row hrow)
        · rw [List.mem_singleton.1 hrow]
          exact hlower other hother)
      (below_eq_behind hsplit hfront hlower) hvisited
    -- the row in question ends the first page or lies behind it
    have hle : limit ≤ front.length + 1 := Nat.le_of_dvd (Nat.succ_pos _) hdvd
    obtain ⟨more, rfl, hmore⟩ :
        ∃ more, front = first ++ more ∧ last :: visited = more ++ final :: behind := by
      rcases List.append_eq_append_iff.1 hrest with hbehind | ⟨more, heq, hmore⟩
      · exact hbehind
      · have hnil : more = [] := by
          rw [heq, List.length_append] at hfirst
          exact List.length_eq_zero_iff.1 (by omega)
        subst hnil
        exact ⟨[], by simpa using heq.symm, by simpa using hmore.symm⟩
    cases more with
    | nil =>
      obtain ⟨rfl, rfl⟩ := List.cons.inj hmore
      rw [List.append_nil]
      exact ⟨hfalls, hlower⟩
    | cons row more =>
      obtain ⟨rfl, rfl⟩ := List.cons.inj hmore
      have hdvd' : limit ∣ more.length + 1 := by
        have heq : (first ++ last :: more).length + 1 = limit + (more.length + 1) := by
          rw [List.length_append, List.length_cons]
          omega
        exact (Nat.dvd_add_right (Nat.dvd_refl limit)).1 (heq ▸ hdvd)
      obtain ⟨habove, hbelowFinal⟩ := hrest' more final behind rfl hdvd' hbehind
      have hfinal := hlower final (by simp)
      refine ⟨fun other hother => ?_, hbelowFinal⟩
      rcases List.mem_append.1 hother with hother | hother
      · exact lt_trans hfinal (hfalls other hother)
      · rcases List.mem_cons.1 hother with rfl | hother
        · exact hfinal
        · exact habove other hother

/-- **When the client gets all the rows**, in their order: the pages are not empty, and the keys
fall at the end of each. -/
theorem follow_all_iff (hkeys : (rows.map key).Nodup) :
    (∃ fuel, follow (page key limit rows) fuel none = some rows) ↔
      (limit = 0 → rows = []) ∧ Aligned key limit rows := by
  have hall : below key rows none = rows := List.filter_eq_self.2 fun _ _ => rfl
  constructor
  · rintro ⟨fuel, h⟩
    rcases Nat.eq_zero_or_pos limit with rfl | hlimit
    · refine ⟨fun _ => ?_, fun front _ _ _ hdvd => absurd (Nat.eq_zero_of_zero_dvd hdvd) (by omega)⟩
      cases fuel with
      | zero => cases h
      | succ fuel =>
        by_contra hne
        have hlt : 0 < (below key rows none).length := by
          rw [hall]
          exact List.length_pos_iff.2 hne
        simp only [follow, page, cut_take_of_lt key hlt, List.take_zero, List.getLast?_nil,
          Option.map_none, Option.some.injEq] at h
        exact hne h.symm
    · exact ⟨fun heq => absurd heq hlimit.ne', aligned_of_follow hkeys hlimit [] rfl
        (by simp) hall h⟩
  · rintro ⟨hzero, haligned⟩
    rcases Nat.eq_zero_or_pos limit with rfl | hlimit
    · rw [hzero rfl]
      exact ⟨1, rfl⟩
    · exact haligned.follow hlimit [] rfl (Nat.dvd_zero _) hall

end Keyset

end Paging
