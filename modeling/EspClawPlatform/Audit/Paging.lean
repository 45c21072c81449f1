import EspClawPlatform.Audit.EventLogService

namespace EspClawPlatform.Audit

open Page

variable {query : EventLogQuery} {log : EventLog} {logs : Nat → EventLog} {before : Option Nat}
  {cursor : Option String} {page : EventLogPage} {pages : List EventLogPage}

/-- What the column `seq` promises: a `bigint`, and no two records under one number. -/
structure Numbered (log : EventLog) : Prop where
  unique : (log.records.rows.map EventLogRecord.seq).Nodup
  bigint : ∀ r ∈ log.records.rows, r.seq < 2 ^ 63

def Grows (logs : Nat → EventLog) : Prop := ∀ i, ∀ r ∈ (logs i).records.rows, r ∈ (logs (i + 1)).records.rows

def EventLogQuery.withCursor (query : EventLogQuery) (cursor : Option String) : EventLogQuery :=
  { query with beforeSeq := cursor }

/-- The pages got one after another, each with the cursor of the one before it
and the `i`-th from `logs i`, until there is no cursor. -/
inductive Answered (query : EventLogQuery) : (Nat → EventLog) → Option String → List EventLogPage → Prop
  | last {logs : Nat → EventLog} {cursor : Option String} {page : EventLogPage}
      (h : find (logs 0) (query.withCursor cursor) = some page) (hend : page.nextCursor = none) :
      Answered query logs cursor [page]
  | next {logs : Nat → EventLog} {cursor : Option String} {page : EventLogPage} {text : String}
      {pages : List EventLogPage} (h : find (logs 0) (query.withCursor cursor) = some page)
      (hnext : page.nextCursor = some text) (hrest : Answered query (fun i => logs (i + 1)) (some text) pages) :
      Answered query logs cursor (page :: pages)

theorem bigintOf_toString {n : Nat} (h : n < 2 ^ 63) : bigintOf (toString n) = some n := by
  rw [bigintOf, numberOf_toString, Option.filter_some, if_pos (decide_eq_true h)]

theorem before_of_seq {n : Nat} (h : n < 2 ^ 63) :
    (query.withCursor (some (toString n))).before = some (some n) := by
  have hne : toString n ≠ "" := Nat.repr_ne_empty
  rw [EventLogQuery.before, EventLogQuery.withCursor, Option.filter_some, if_pos (decide_eq_true hne)]
  exact congrArg (Option.map some) (bigintOf_toString h)

theorem acceptsBeforeSeq_toString {n : Nat} (h : n < 2 ^ 63) : acceptsBeforeSeq (toString n) = true := by
  have htext : (toString n).toList = Nat.toDigits 10 n := Nat.toList_repr
  have hlength : (toString n).length = (Nat.toDigits 10 n).length := by rw [← String.length_toList, htext]
  have hpos : 1 ≤ (Nat.toDigits 10 n).length := Nat.length_toDigits_pos
  have hle : (Nat.toDigits 10 n).length ≤ 19 := (Nat.length_toDigits_le_iff (by decide) (by decide)).mpr (by omega)
  have hdigits : (Nat.toDigits 10 n).all Char.isDigit = true :=
    List.all_eq_true.mpr fun c hc => Nat.isDigit_of_mem_toDigits (by decide) (by decide) hc
  rw [acceptsBeforeSeq, htext, hlength, hdigits, decide_eq_true hpos, decide_eq_true hle]
  rfl

theorem mem_selected {r : EventLogRecord} :
    r ∈ log.selected query before ↔
      r ∈ log.records.rows ∧ query.selects r = true ∧ ∀ b ∈ before, r.seq < b := by
  rw [EventLog.selected, List.mem_filter, Bool.and_eq_true]
  cases before with
  | none => simp
  | some b => simp

theorem selected_unique (h : Numbered log) (query : EventLogQuery) (before : Option Nat) :
    ((log.selected query before).map EventLogRecord.seq).Nodup :=
  h.unique.sublist (List.filter_sublist.map _)

structure Answers (log : EventLog) (query : EventLogQuery) (before : Option Nat) (page : EventLogPage) : Prop where
  newest : IsPage EventLogRecord.seq query.limit (log.selected query before) page.items
  none_iff : page.nextCursor = none ↔ (log.selected query before).length ≤ query.limit
  some_last : ∀ text ∈ page.nextCursor, ∃ last, page.items.getLast? = some last ∧ text = toString last.seq

theorem find_answers (hlog : Numbered log) (hl : 0 < query.limit) (hb : query.before = some before) :
    ∃ page, find log query = some page ∧ Answers log query before page := by
  have hlength : ((newestFirst EventLogRecord.seq (log.selected query before)).take (query.limit + 1)).length =
      min (query.limit + 1) (log.selected query before).length := by
    rw [List.length_take, (newestFirst_perm _).length_eq]
  have hpage := isPage_take (selected_unique hlog query before) query.limit
  rw [find, hb, Option.bind_eq_bind, Option.bind_some]
  simp only [hlength, List.take_take, Nat.min_eq_left (Nat.le_succ query.limit)]
  by_cases hmore : query.limit < (log.selected query before).length
  · rw [if_pos (by omega)]
    have hitems : (newestFirst EventLogRecord.seq (log.selected query before)).take query.limit ≠ [] := by
      rw [← List.length_pos_iff, hpage.length]
      omega
    have hlast := List.getLast?_eq_some_getLast hitems
    rw [hlast]
    refine ⟨_, rfl, hpage, ?_, ?_⟩
    · exact ⟨fun h => (by cases h), fun h => absurd hmore (Nat.not_lt.mpr h)⟩
    · rintro text htext
      exact ⟨_, hlast, (Option.some.inj htext).symm⟩
  · have hle := Nat.not_lt.mp hmore
    rw [if_neg (by omega)]
    have hall : (newestFirst EventLogRecord.seq (log.selected query before)).take (query.limit + 1) =
        (newestFirst EventLogRecord.seq (log.selected query before)).take query.limit := by
      rw [List.take_of_length_le, List.take_of_length_le]
      · rwa [(newestFirst_perm _).length_eq]
      · rw [(newestFirst_perm _).length_eq]
        exact Nat.le_succ_of_le hle
    exact ⟨_, rfl, hall ▸ hpage, ⟨fun _ => hle, fun _ => rfl⟩, fun text htext => (by cases htext)⟩

theorem find_withCursor (hlog : Numbered log) (hl : 0 < query.limit)
    (hb : (query.withCursor cursor).before = some before) :
    ∃ page, find log (query.withCursor cursor) = some page ∧ Answers log query before page := by
  obtain ⟨page, hpage, h⟩ := find_answers hlog (show 0 < (query.withCursor cursor).limit from hl) hb
  exact ⟨page, hpage, h.newest, h.none_iff, h.some_last⟩

namespace Answers

theorem all_iff (h : Answers log query before page) (hlog : Numbered log) :
    page.nextCursor = none ↔ ∀ r ∈ log.selected query before, r ∈ page.items :=
  h.none_iff.trans (h.newest.all_iff (selected_unique hlog query before)).symm

theorem length_eq (h : Answers log query before page) {text : String} (hnext : page.nextCursor = some text) :
    page.items.length = query.limit := by
  have hmore : ¬ (log.selected query before).length ≤ query.limit := fun hle => by
    rw [h.none_iff.mpr hle] at hnext
    cases hnext
  have hlength := h.newest.length
  omega

theorem none_iff_oldest (h : Answers log query before page) (hlog : Numbered log)
    (hsome : before = none ∨ log.selected query before ≠ []) :
    page.nextCursor = none ↔
      ∀ r ∈ log.records.rows, query.selects r = true → ∃ item ∈ page.items, item.seq ≤ r.seq := by
  rw [h.all_iff hlog]
  refine ⟨fun hall r hr hsel => ?_, fun hold r hr => ?_⟩
  · by_cases hbelow : ∀ b ∈ before, r.seq < b
    · exact ⟨r, hall r (mem_selected.mpr ⟨hr, hsel, hbelow⟩), Nat.le_refl _⟩
    · -- a record that an earlier page has passed
      obtain ⟨b, hb, hle⟩ : ∃ b ∈ before, b ≤ r.seq := by simpa using hbelow
      have hne := hsome.resolve_left fun hnone => by rw [hnone] at hb; cases hb
      obtain ⟨item, hitem⟩ := List.exists_mem_of_ne_nil _ hne
      exact ⟨item, hall item hitem, Nat.le_trans (Nat.le_of_lt ((mem_selected.mp hitem).2.2 b hb)) hle⟩
  · by_contra hnot
    have hnewer := h.newest.newest r hr hnot
    obtain ⟨hmem, hsel, -⟩ := mem_selected.mp hr
    obtain ⟨item, hitem, hle⟩ := hold r hmem hsel
    exact absurd (hnewer item hitem) (Nat.not_lt.mpr hle)

theorem rest (h : Answers log query before page) (hlog : Numbered log) {text : String}
    (hnext : page.nextCursor = some text) :
    ∃ n < 2 ^ 63, text = toString n ∧ (∀ item ∈ page.items, n ≤ item.seq) ∧ (∀ b ∈ before, n < b) ∧
      (∀ r ∈ log.selected query before, r ∉ page.items → r ∈ log.selected query (some n)) ∧
        log.selected query (some n) ≠ [] := by
  obtain ⟨last, hlast, htext⟩ := h.some_last text hnext
  have hmem : last ∈ page.items := List.mem_of_getLast? hlast
  obtain ⟨hrow, hsel, hbelow⟩ := mem_selected.mp (h.newest.subset last hmem)
  have hleft : ∀ r ∈ log.selected query before, r ∉ page.items → r ∈ log.selected query (some last.seq) := by
    intro r hr hnot
    obtain ⟨hr', hsel', -⟩ := mem_selected.mp hr
    refine mem_selected.mpr ⟨hr', hsel', fun b hb => ?_⟩
    obtain rfl := Option.some.inj hb
    exact h.newest.newest r hr hnot last hmem
  refine ⟨last.seq, hlog.bigint last hrow, htext, h.newest.last_le hlast, hbelow, hleft, fun hnone => ?_⟩
  have hall : page.nextCursor = none := (h.all_iff hlog).mpr fun r hr => by
    by_contra hnot
    have hmem := hleft r hr hnot
    rw [hnone] at hmem
    exact absurd hmem List.not_mem_nil
  rw [hall] at hnext
  cases hnext

end Answers

structure Lists (query : EventLogQuery) (logs : Nat → EventLog) (before : Option Nat)
    (pages : List EventLogPage) : Prop where
  descending : (pages.flatMap EventLogPage.items).Pairwise fun a b => b.seq < a.seq
  sound : ∀ r ∈ pages.flatMap EventLogPage.items, ∃ i, r ∈ (logs i).selected query before
  complete : ∀ r ∈ (logs 0).selected query before, r ∈ pages.flatMap EventLogPage.items
  each : ∀ i page, pages[i]? = some page → ∃ b, Answers (logs i) query b page ∧
    (b = none ∨ (logs i).selected query b ≠ []) ∧ (page.nextCursor = none ↔ i + 1 = pages.length)

theorem lists_last (hlog : Numbered (logs 0)) (h : Answers (logs 0) query before page)
    (hsome : before = none ∨ (logs 0).selected query before ≠ []) (hend : page.nextCursor = none) :
    Lists query logs before [page] := by
  have hitems : [page].flatMap EventLogPage.items = page.items := List.flatMap_singleton ..
  refine ⟨hitems ▸ h.newest.descending, ?_, ?_, ?_⟩
  · rw [hitems]
    exact fun r hr => ⟨0, h.newest.subset r hr⟩
  · rw [hitems]
    exact (h.all_iff hlog).mp hend
  · intro i page' hi
    obtain ⟨hlt, rfl⟩ := List.getElem?_eq_some_iff.mp hi
    obtain rfl : i = 0 := Nat.lt_one_iff.mp hlt
    exact ⟨before, h, hsome, iff_of_true hend rfl⟩

theorem lists_next {n : Nat} (hgrows : Grows logs) (hpages : pages ≠ []) (h : Answers (logs 0) query before page)
    (hsome : before = none ∨ (logs 0).selected query before ≠ []) (hnext : page.nextCursor ≠ none)
    (hle : ∀ item ∈ page.items, n ≤ item.seq) (hlt : ∀ b ∈ before, n < b)
    (hleft : ∀ r ∈ (logs 0).selected query before, r ∉ page.items → r ∈ (logs 0).selected query (some n))
    (hrest : Lists query (fun i => logs (i + 1)) (some n) pages) : Lists query logs before (page :: pages) := by
  have hbelow : ∀ r ∈ pages.flatMap EventLogPage.items, r.seq < n := fun r hr => by
    obtain ⟨i, hi⟩ := hrest.sound r hr
    exact (mem_selected.mp hi).2.2 n rfl
  refine ⟨?_, fun r hr => ?_, fun r hr => ?_, fun i page' hi => ?_⟩
  · rw [List.flatMap_cons, List.pairwise_append]
    exact ⟨h.newest.descending, hrest.descending,
      fun item hitem r hr => Nat.lt_of_lt_of_le (hbelow r hr) (hle item hitem)⟩
  · rw [List.flatMap_cons] at hr
    rcases List.mem_append.mp hr with hr | hr
    · exact ⟨0, h.newest.subset r hr⟩
    · obtain ⟨i, hi⟩ := hrest.sound r hr
      obtain ⟨hrow, hsel, -⟩ := mem_selected.mp hi
      exact ⟨i + 1, mem_selected.mpr ⟨hrow, hsel, fun b hb => Nat.lt_trans (hbelow r hr) (hlt b hb)⟩⟩
  · rw [List.flatMap_cons]
    by_cases hmem : r ∈ page.items
    · exact List.mem_append_left _ hmem
    · obtain ⟨hrow, hsel, hseq⟩ := mem_selected.mp (hleft r hr hmem)
      exact List.mem_append_right _ (hrest.complete r (mem_selected.mpr ⟨hgrows 0 r hrow, hsel, hseq⟩))
  · cases i with
    | zero =>
        obtain rfl := Option.some.inj hi
        exact ⟨before, h, hsome, iff_of_false hnext (by simpa using hpages)⟩
    | succ i =>
        obtain ⟨b, hanswers, hb, hlast⟩ := hrest.each i page' hi
        exact ⟨b, hanswers, hb, hlast.trans (by rw [List.length_cons]; omega)⟩

theorem answered_ne_nil (h : Answered query logs cursor pages) : pages ≠ [] := by
  cases h <;> exact List.cons_ne_nil _ _

theorem lists_of_answered (h : Answered query logs cursor pages) (hlogs : ∀ i, Numbered (logs i))
    (hgrows : Grows logs) (hl : 0 < query.limit)
    (hb : (query.withCursor cursor).before = some before)
    (hsome : before = none ∨ (logs 0).selected query before ≠ []) : Lists query logs before pages := by
  induction h generalizing before with
  | @last logs cursor page h hend =>
      obtain ⟨page', hpage, hanswers⟩ := find_withCursor (hlogs 0) hl hb
      obtain rfl := Option.some.inj (h.symm.trans hpage)
      exact lists_last (hlogs 0) hanswers hsome hend
  | @next logs cursor page text pages h hnext hrest ih =>
      obtain ⟨page', hpage, hanswers⟩ := find_withCursor (hlogs 0) hl hb
      obtain rfl := Option.some.inj (h.symm.trans hpage)
      obtain ⟨n, hn, rfl, hle, hlt, hleft, hne⟩ := hanswers.rest (hlogs 0) hnext
      have hnext' : page.nextCursor ≠ none := fun hnone => by rw [hnone] at hnext; cases hnext
      -- what was left is still there
      have hstill : (logs 1).selected query (some n) ≠ [] := by
        obtain ⟨r, hr⟩ := List.exists_mem_of_ne_nil _ hne
        obtain ⟨hrow, hmatch⟩ := mem_selected.mp hr
        exact List.ne_nil_of_mem (mem_selected.mpr ⟨hgrows 0 r hrow, hmatch⟩)
      have hlists := ih (fun i => hlogs (i + 1)) (fun i => hgrows (i + 1)) (before_of_seq hn) (.inr hstill)
      exact lists_next hgrows (answered_ne_nil hrest) hanswers hsome hnext' hle hlt hleft hlists

theorem answered_below {n : Nat} (hn : n < 2 ^ 63) (hlogs : ∀ i, Numbered (logs i)) (hl : 0 < query.limit) :
    ∃ pages, Answered query logs (some (toString n)) pages := by
  induction n using Nat.strong_induction_on generalizing logs with
  | _ n ih =>
      obtain ⟨page, hpage, hanswers⟩ := find_withCursor (hlogs 0) hl (before_of_seq hn)
      cases hnext : page.nextCursor with
      | none => exact ⟨[page], .last hpage hnext⟩
      | some text =>
          obtain ⟨m, hm, rfl, -, hlt, -⟩ := hanswers.rest (hlogs 0) hnext
          obtain ⟨pages, hpages⟩ := ih m (hlt n rfl) hm fun i => hlogs (i + 1)
          exact ⟨page :: pages, .next hpage hnext hpages⟩

theorem answered (hlogs : ∀ i, Numbered (logs i)) (hl : 0 < query.limit) :
    ∃ pages, Answered query logs none pages := by
  have hfirst : (query.withCursor none).before = some none := rfl
  obtain ⟨page, hpage, hanswers⟩ := find_withCursor (hlogs 0) hl hfirst
  cases hnext : page.nextCursor with
  | none => exact ⟨[page], .last hpage hnext⟩
  | some text =>
      obtain ⟨m, hm, rfl, -⟩ := hanswers.rest (hlogs 0) hnext
      obtain ⟨pages, hpages⟩ := answered_below hm (fun i => hlogs (i + 1)) hl
      exact ⟨page :: pages, .next hpage hnext hpages⟩

/-- Whatever is recorded between the requests, the pages come to an end, and they
list what matched at the first request once each, the newest first. -/
theorem paging_loses_nothing (hlogs : ∀ i, Numbered (logs i)) (hgrows : Grows logs) (hl : 0 < query.limit) :
    (∃ pages, Answered query logs none pages) ∧
    ∀ pages, Answered query logs none pages →
      (pages.flatMap EventLogPage.items).Pairwise (fun a b => b.seq < a.seq) ∧
      (∀ r ∈ (logs 0).records.rows, query.selects r = true → (pages.flatMap EventLogPage.items).count r = 1) ∧
      (∀ r ∈ pages.flatMap EventLogPage.items, query.selects r = true ∧ ∃ i, r ∈ (logs i).records.rows) ∧
      ∀ i page, pages[i]? = some page →
        (i + 1 < pages.length → page.items.length = query.limit) ∧
        (page.nextCursor = none ↔ i + 1 = pages.length) ∧
        (page.nextCursor = none ↔
          ∀ r ∈ (logs i).records.rows, query.selects r = true → ∃ item ∈ page.items, item.seq ≤ r.seq) ∧
        ∀ text ∈ page.nextCursor, acceptsBeforeSeq text = true := by
  refine ⟨answered hlogs hl, fun pages h => ?_⟩
  have hlists : Lists query logs none pages := lists_of_answered h hlogs hgrows hl rfl (.inl rfl)
  have hnodup : (pages.flatMap EventLogPage.items).Nodup := hlists.descending.imp fun hlt => by
    rintro rfl
    exact Nat.lt_irrefl _ hlt
  refine ⟨hlists.descending, fun r hr hsel => ?_, fun r hr => ?_, fun i page hi => ?_⟩
  · exact List.count_eq_one_of_mem hnodup (hlists.complete r (mem_selected.mpr ⟨hr, hsel, nofun⟩))
  · obtain ⟨i, hi⟩ := hlists.sound r hr
    obtain ⟨hrow, hsel, -⟩ := mem_selected.mp hi
    exact ⟨hsel, i, hrow⟩
  · obtain ⟨b, hanswers, hb, hlast⟩ := hlists.each i page hi
    refine ⟨fun hlt => ?_, hlast, hanswers.none_iff_oldest (hlogs i) hb, fun text htext => ?_⟩
    · cases hnext : page.nextCursor with
      | none => exact absurd (hlast.mp hnext) (Nat.ne_of_lt hlt)
      | some text => exact hanswers.length_eq hnext
    · obtain ⟨n, hn, rfl, -⟩ := hanswers.rest (hlogs i) htext
      exact acceptsBeforeSeq_toString hn

def testRecord (seq : Nat) : EventLogRecord where
  eventId := toString seq
  seq := seq
  eventType := "device.online"
  schemaVersion := 1
  occurredAt := 0
  recordedAt := 0
  deviceId := some "dev-1"
  organizationId := none
  source := "devices"
  correlationId := "c1"
  causationId := none
  traceId := none
  spanId := none
  payload := .deviceOnline false

def testLog (records : List EventLogRecord) : EventLog where
  records := records.foldl Table.save .empty
  drawn := records.length

def testLogs : Nat → EventLog
  | 0 => testLog [testRecord 1, testRecord 2]
  | _ + 1 => testLog [testRecord 1, testRecord 2, testRecord 3]

theorem two_records_are_listed : ∃ pages, Answered { limit := 1 } testLogs none pages ∧
    (pages.flatMap EventLogPage.items).count (testRecord 1) = 1 ∧
      (pages.flatMap EventLogPage.items).count (testRecord 2) = 1 := by
  have htwo : (testLog [testRecord 1, testRecord 2]).records.rows = [testRecord 1, testRecord 2] := by decide +kernel
  have hthree : (testLog [testRecord 1, testRecord 2, testRecord 3]).records.rows =
      [testRecord 1, testRecord 2, testRecord 3] := by decide +kernel
  have hnumbered : ∀ i, Numbered (testLogs i) := fun i => by
    cases i with
    | zero => exact ⟨by decide +kernel, by decide +kernel⟩
    | succ i =>
        change Numbered (testLog [testRecord 1, testRecord 2, testRecord 3])
        exact ⟨by decide +kernel, by decide +kernel⟩
  have hgrows : Grows testLogs := fun i r hr => by
    cases i with
    | zero =>
        change r ∈ (testLog [testRecord 1, testRecord 2, testRecord 3]).records.rows
        rw [hthree]
        exact List.mem_append_left [testRecord 3] (htwo ▸ hr)
    | succ i => exact hr
  obtain ⟨⟨pages, h⟩, hall⟩ := @paging_loses_nothing { limit := 1 } testLogs hnumbered hgrows (by decide)
  have hcount := (hall pages h).2.1
  exact ⟨pages, h, hcount _ (by decide +kernel) rfl, hcount _ (by decide +kernel) rfl⟩

end EspClawPlatform.Audit
