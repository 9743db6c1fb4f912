import Swk.Waterfalls

/-!
# Indexes over pages

The index of a chain's next unused script is taken from the position on the page alone, while the
child number of a script counts the pages before it, and each page with a used script overwrites
what the pages before it gave. So what comes back is the position after the last used script of
the last page that has one (`IsPageLast`). It is the index after the last used script over all
pages (`IsGlobalLast`) exactly if only the first page has used scripts.
-/

namespace Swk

open Cache List

/-- The pages are numbered one after the other, list at most a thousand scripts of a chain and
each chain once. -/
structure WellFormed (client : WaterfallsClient) (first : Nat) (pages : List WaterfallsResult) :
    Prop where
  numbered : ∀ (k : Nat) (result : WaterfallsResult), pages[k]? = some result →
    result.page.toNat = first + k
  bounded : ∀ result ∈ pages, ∀ entry ∈ result.txsSeen.toPairs,
    entry.2.length ≤ waterfallsMaxAddresses
  distinct : ∀ result ∈ pages, (result.txsSeen.toPairs.map fun e => client.chainOf e.1).Nodup

theorem WellFormed.tail {client : WaterfallsClient} {first : Nat} {result : WaterfallsResult}
    {pages : List WaterfallsResult} (h : WellFormed client first (result :: pages)) :
    WellFormed client (first + 1) pages where
  numbered := by
    intro k r hk
    rw [h.numbered (k + 1) r (by simpa using hk)]
    omega
  bounded := fun r hr => h.bounded r (mem_cons_of_mem _ hr)
  distinct := fun r hr => h.distinct r (mem_cons_of_mem _ hr)

/-- The index of a chain comes after its last used script, over all pages. -/
def IsGlobalLast (seen : List Seen) (chain : Chain) (last : UInt32) : Prop :=
  (∀ s ∈ seen, s.chain = chain → s.history ≠ [] → s.index < last.toNat) ∧
    (last = 0 ∨ ∃ s ∈ seen, s.chain = chain ∧ s.history ≠ [] ∧ last.toNat = s.index + 1)

/-- The index of a chain comes after the position of its last used script, on the last page that
has one. -/
def IsPageLast (seen : List Seen) (chain : Chain) (last : UInt32) : Prop :=
  (last = 0 ∧ ∀ s ∈ seen, s.chain = chain → s.history = []) ∨
    ∃ s ∈ seen, s.chain = chain ∧ s.history ≠ [] ∧ last.toNat = s.pos + 1 ∧
      ∀ s' ∈ seen, s'.chain = chain → s'.history ≠ [] →
        s'.page < s.page ∨ s'.page = s.page ∧ s'.pos ≤ s.pos

section Indexes

variable {env : Env} {client : WaterfallsClient} {c : Cache} {seen : List Seen} {page : UInt16}
  {st st' : WaterfallsState} {entry : String × List (List TxSeen)} {chain : Chain}

variable {s : Seen} {last : UInt32} {data : WaterfallsData} {pages : List WaterfallsResult}

theorem mem_seenOf : s ∈ seenOf client page entry ↔
    s.chain = client.chainOf entry.1 ∧ s.page = page.toNat ∧ entry.2[s.pos]? = some s.history := by
  rw [seenOf, mem_map]
  constructor
  · rintro ⟨⟨history, pos⟩, hmem, rfl⟩
    exact ⟨rfl, rfl, mk_mem_zipIdx_iff_getElem?.1 hmem⟩
  · rintro ⟨hchain, hpage, hget⟩
    refine ⟨(s.history, s.pos), mk_mem_zipIdx_iff_getElem?.2 hget, ?_⟩
    rw [← hchain, ← hpage]

theorem IsPageLast.append {more : List Seen} (h : IsPageLast seen chain last)
    (hmore : ∀ s ∈ more, s.chain = chain → s.history = []) :
    IsPageLast (seen ++ more) chain last := by
  rcases h with ⟨hzero, hnone⟩ | ⟨s, hs, hchain, hused, hlast, hmax⟩
  · refine .inl ⟨hzero, fun s hs hc => ?_⟩
    rcases mem_append.1 hs with hs | hs
    · exact hnone s hs hc
    · exact hmore s hs hc
  · refine .inr ⟨s, mem_append_left _ hs, hchain, hused, hlast, fun s' hs' hc hne => ?_⟩
    rcases mem_append.1 hs' with hs' | hs'
    · exact hmax s' hs' hc hne
    · exact absurd (hmore s' hs' hc) hne

theorem IsPageLast.noteUsed (hlength : entry.2.length ≤ waterfallsMaxAddresses)
    (hbefore : ∀ s ∈ seen, s.chain = client.chainOf entry.1 → s.page < page.toNat)
    (h : IsPageLast seen chain (data.lastUnused.get chain)) :
    IsPageLast (seen ++ seenOf client page entry) chain
      ((data.noteUsed (client.chainOf entry.1) entry.2).lastUnused.get chain) := by
  rw [noteUsed_lastUnused]
  by_cases hchain : chain = client.chainOf entry.1
  · rw [if_pos hchain]
    cases hmax : maxUsed (entry.2.map (·.map TxSeen.toHistory)) with
    | none =>
      have hnone := maxUsed_none hmax
      apply h.append
      intro s hs _
      obtain ⟨-, -, hget⟩ := mem_seenOf.1 hs
      have hempty := hnone _ (mem_map_of_mem (mem_of_getElem? hget))
      exact map_eq_nil_iff.1 hempty
    | some p =>
      have hget (q : Nat) (history : List TxSeen) (hq : entry.2[q]? = some history) :
          (entry.2.map (·.map TxSeen.toHistory))[q]? = some (history.map TxSeen.toHistory) := by
        rw [getElem?_map, hq, Option.map_some]
      obtain ⟨⟨els, hels, hne⟩, hmost⟩ := maxUsed_some hmax
      rw [getElem?_map, Option.map_eq_some_iff] at hels
      obtain ⟨history, hhistory, rfl⟩ := hels
      have hlt := (List.getElem?_eq_some_iff.1 hhistory).1
      rw [waterfallsMaxAddresses] at hlength
      refine .inr ⟨⟨chain, page.toNat, p, history⟩, ?_, rfl, ?_, ?_, ?_⟩
      · exact mem_append_right _ (mem_seenOf.2 ⟨hchain, rfl, hhistory⟩)
      · exact fun hnil => hne (by simp [show history = [] from hnil])
      · rw [Option.map_some, Option.getD_some, UInt32.toNat_add, UInt32.toNat_ofNat',
          show (1 : UInt32).toNat = 1 from rfl]
        dsimp only
        omega
      · intro s hs hc hused
        rcases mem_append.1 hs with hs | hs
        · exact .inl (hbefore s hs (hc.trans hchain))
        · obtain ⟨-, hpage, hpos⟩ := mem_seenOf.1 hs
          exact .inr ⟨hpage, hmost _ _ (hget _ _ hpos) (by simpa using hused)⟩
  · rw [if_neg hchain]
    apply h.append
    intro s hs hc
    exact absurd (hc.symm.trans (mem_seenOf.1 hs).1) hchain

theorem seenChains_last {l : List (String × List (List TxSeen))}
    (hbounded : ∀ entry ∈ l, entry.2.length ≤ waterfallsMaxAddresses)
    (hdistinct : (l.map fun e => client.chainOf e.1).Nodup)
    (hbefore : ∀ s ∈ seen, s.chain ∈ l.map (fun e => client.chainOf e.1) → s.page < page.toNat)
    (hlast : ∀ chain, IsPageLast seen chain (st.data.lastUnused.get chain))
    (h : l.foldlM (seenChain env client c page) st = .ok st') :
    ∀ chain, IsPageLast (seen ++ l.flatMap (seenOf client page)) chain
      (st'.data.lastUnused.get chain) := by
  induction l generalizing st seen with
  | nil =>
    cases h
    simpa using hlast
  | cons entry l ih =>
    rw [foldlM_cons] at h
    obtain ⟨st₁, hstep, h⟩ := except_bind_ok_iff.1 h
    rw [map_cons, nodup_cons] at hdistinct
    rw [map_cons] at hbefore
    rw [flatMap_cons, ← append_assoc]
    refine ih (fun e he => hbounded e (mem_cons_of_mem _ he)) hdistinct.2 ?_ ?_ h
    · intro s hs hc
      rcases mem_append.1 hs with hs | hs
      · exact hbefore s hs (mem_cons_of_mem _ hc)
      · rw [(mem_seenOf.1 hs).1] at hc
        exact absurd hc hdistinct.1
    · intro chain
      rw [(seenChain_ok seen hstep).2.1]
      refine (hlast chain).noteUsed (hbounded entry (mem_cons_self ..)) ?_
      intro s hs hc
      exact hbefore s hs (hc ▸ mem_cons_self ..)

theorem seenPage_last {result : WaterfallsResult} {first : Nat}
    (hpages : WellFormed client first (result :: pages)) (hbefore : ∀ s ∈ seen, s.page < first)
    (hlast : ∀ chain, IsPageLast seen chain (st.data.lastUnused.get chain))
    (h : seenPage env client c st result = .ok st') :
    (∀ chain, IsPageLast (seen ++ result.seen client) chain (st'.data.lastUnused.get chain)) ∧
      ∀ s ∈ seen ++ result.seen client, s.page < first + 1 := by
  have hnumber : result.page.toNat = first := hpages.numbered 0 result rfl
  have hmem : result ∈ result :: pages := mem_cons_self ..
  obtain ⟨unspent, -, h⟩ := except_bind_ok_iff.1 h
  obtain ⟨st₁, hfold, h⟩ := except_bind_ok_iff.1 h
  cases h
  refine ⟨fun chain => ?_, fun s hs => ?_⟩
  · apply seenChains_last (hpages.bounded result hmem) (hpages.distinct result hmem) ?_ ?_ hfold
    · intro s hs _
      rw [hnumber]
      exact hbefore s hs
    · exact hlast
  · rcases mem_append.1 hs with hs | hs
    · have := hbefore s hs
      omega
    · obtain ⟨entry, -, hs⟩ := mem_flatMap.1 hs
      rw [(mem_seenOf.1 hs).2.1, hnumber]
      omega

/-- **What the loop makes of the indexes.** -/
theorem waterfallsLoop_last {responses : List Response} {retried : Bool} {first : Nat}
    (hpages : WellFormed client first (pagesRead responses)) (hbefore : ∀ s ∈ seen, s.page < first)
    (hlast : ∀ chain, IsPageLast seen chain (st.data.lastUnused.get chain))
    (h : waterfallsLoop env client c responses retried st = .ok st') :
    ∀ chain, IsPageLast (seen ++ seenIn client responses) chain
      (st'.data.lastUnused.get chain) := by
  have hloop := waterfallsLoop_pages h
  unfold seenIn
  clear h
  generalize pagesRead responses = pages at hpages hloop ⊢
  induction pages generalizing st seen first with
  | nil =>
    cases hloop
    simpa using hlast
  | cons result rest ih =>
    rw [foldlM_cons] at hloop
    obtain ⟨st₁, hpage, hrest⟩ := except_bind_ok_iff.1 hloop
    obtain ⟨hlast₁, hbefore₁⟩ := seenPage_last hpages hbefore hlast hpage
    rw [flatMap_cons, ← append_assoc]
    exact ih hbefore₁ hlast₁ hpages.tail hrest

theorem WellFormed.seen_bound {first : Nat} (h : WellFormed client first pages)
    (hs : s ∈ pages.flatMap (·.seen client)) :
    s.pos < waterfallsMaxAddresses ∧ s.child = .normal (UInt32.ofNat s.index) := by
  obtain ⟨result, hresult, hs⟩ := mem_flatMap.1 hs
  obtain ⟨entry, hentry, hs⟩ := mem_flatMap.1 hs
  obtain ⟨-, hpage, hget⟩ := mem_seenOf.1 hs
  have hlt := (List.getElem?_eq_some_iff.1 hget).1
  have hpos := Nat.lt_of_lt_of_le hlt (h.bounded result hresult entry hentry)
  refine ⟨hpos, ofU32_toU32 (i := UInt32.ofNat s.index) rfl ?_⟩
  have hnumber := result.page.toNat_lt
  rw [waterfallsMaxAddresses] at hpos
  rw [UInt32.lt_iff_toNat_lt, UInt32.toNat_ofNat', Seen.index, waterfallsMaxAddresses, hpage,
    show (0x80000000 : UInt32).toNat = 2147483648 from rfl, Nat.mod_eq_of_lt (by omega)]
  omega

theorem IsPageLast.global_iff (hpos : ∀ s ∈ seen, s.pos < waterfallsMaxAddresses)
    (h : IsPageLast seen chain last) :
    IsGlobalLast seen chain last ↔ ∀ s ∈ seen, s.chain = chain → s.history ≠ [] → s.page = 0 := by
  rcases h with ⟨hzero, hnone⟩ | ⟨s, hs, hchain, hused, hlast, hmax⟩
  · refine ⟨fun _ s hs hc hne => absurd (hnone s hs hc) hne, fun _ => ⟨?_, .inl hzero⟩⟩
    intro s hs hc hne
    exact absurd (hnone s hs hc) hne
  · have hspos := hpos s hs
    constructor
    · rintro ⟨hbound, -⟩ s' hs' hc hne
      have hindex := hbound s hs hchain hused
      rw [Seen.index, hlast] at hindex
      -- the last used script is on the first page, so every used script is
      have hfirst : s.page = 0 := by
        by_contra hpage
        have := Nat.le_mul_of_pos_right waterfallsMaxAddresses (Nat.pos_of_ne_zero hpage)
        omega
      have := hmax s' hs' hc hne
      omega
    · intro hfirst
      have hpage := hfirst s hs hchain hused
      refine ⟨fun s' hs' hc hne => ?_, .inr ⟨s, hs, hchain, hused, ?_⟩⟩
      · have hpage' := hfirst s' hs' hc hne
        have := hmax s' hs' hc hne
        rw [Seen.index, hpage', hlast]
        omega
      · rw [Seen.index, hpage, hlast]
        omega

theorem waterfalls_lastUnused_iff {responses : List Response}
    (hpages : WellFormed client 0 (pagesRead responses))
    (h : getHistoryWaterfalls env client c responses = .ok data) (chain : Chain) :
    IsGlobalLast (seenIn client responses) chain (data.lastUnused.get chain) ↔
      ∀ s ∈ seenIn client responses, s.chain = chain → s.history ≠ [] → s.page = 0 := by
  obtain ⟨-, st, hst, hlast⟩ := getHistoryWaterfalls_gathered h
  have hstart (chain : Chain) :
      IsPageLast [] chain (WaterfallsData.default.lastUnused.get chain) := by
    refine .inl ⟨?_, by simp⟩
    cases chain with
    | external => rfl
    | internal => rfl
  rw [hlast]
  exact (waterfallsLoop_last hpages (forall_mem_nil _) hstart hst chain).global_iff
    fun s hs => (hpages.seen_bound hs).1

end Indexes

/-- What the data should be: for each chain the index after its last used script over all pages,
the transactions of all entries with a height listed for them, and every script that is not
cached under a global child number at which it is listed. -/
structure YieldsGlobal (env : Env) (client : WaterfallsClient) (c : Cache)
    (responses : List Response) (data : WaterfallsData) : Prop where
  lastUnused : ∀ chain, IsGlobalLast (seenIn client responses) chain (data.lastUnused.get chain)
  txids : ∀ t, t ∈ data.txidHeight ↔ ∃ el ∈ entriesIn client responses, el.txid = t
  heights : ∀ t h, data.txidHeight.lookup t = some h →
    ∃ el ∈ entriesIn client responses, el.txid = t ∧ el.reported = h
  scripts : ∀ s ∈ seenIn client responses, ∀ row, s.row env c = some (row, false) →
    ∃ s' ∈ seenIn client responses, ∃ pubkey cached,
      data.scripts.lookup row.1 = some (s'.chain, .normal (UInt32.ofNat s'.index), pubkey) ∧
      s'.row env c = some ((row.1, (s'.chain, .normal (UInt32.ofNat s'.index), pubkey)), cached)

/-- **Paging yields global indexes** exactly if only the first page has used scripts; all else of
the data is always right. -/
theorem waterfalls_global_iff (env : Env) (client : WaterfallsClient) (c : Cache)
    (responses : List Response) (data : WaterfallsData)
    (hpages : WellFormed client 0 (pagesRead responses))
    (h : getHistoryWaterfalls env client c responses = .ok data) :
    YieldsGlobal env client c responses data ↔
      ∀ s ∈ seenIn client responses, s.history ≠ [] → s.page = 0 := by
  obtain ⟨⟨byAddress, hgathers⟩, -⟩ := getHistoryWaterfalls_gathered h
  have hglobal := waterfalls_lastUnused_iff hpages h
  constructor
  · intro hyields s hs hused
    exact (hglobal s.chain).1 (hyields.lastUnused s.chain) s hs rfl hused
  · intro hfirst
    refine ⟨fun chain => ?_, hgathers.listed, hgathers.reported, fun s hs row hrow => ?_⟩
    · exact (hglobal chain).2 fun s hs _ hused => hfirst s hs hused
    · obtain ⟨path, hpath⟩ := HashMap.mem_iff.1 (hgathers.scripts s hs row hrow)
      obtain ⟨s', hs', cached, hrow'⟩ := hgathers.paths row.1 path hpath
      have hchild := (hpages.seen_bound hs').2
      -- the path is the one the row was seen at
      have hseen : ∃ pubkey, path = (s'.chain, s'.child, pubkey) := by
        unfold Seen.row at hrow'
        split at hrow'
        · next r _ =>
            simp only [Option.some.injEq, Prod.mk.injEq] at hrow'
            exact ⟨r.2.1, hrow'.1.2.symm⟩
        · cases hrow'
      obtain ⟨pubkey, rfl⟩ := hseen
      rw [hchild] at hpath hrow'
      exact ⟨s', hs', pubkey, cached, hpath, hrow'⟩

namespace SecondPage

def script (chain : Chain) (index : UInt32) : Script :=
  [if chain = .external then 0x51 else 0x52, index.toUInt8, (index >>> 8).toUInt8]

def chainOf (chain : Chain) : SingleDescriptor := Concrete.scripts chain true (script chain)

def env : Env :=
  { Concrete.env (fun _ => 7) [] with
    descriptor :=
      ⟨.desc (Concrete.descriptor (chainOf .external) (some (chainOf .internal)) none), false⟩ }

def client : WaterfallsClient where
  utxoOnly := false
  isElip151 := false
  baseDesc := .ok "wallet"
  parseDescriptor := fun desc => .ok (some (if desc = "internal" then .internal else .external))
  addressOf := fun _ => none
  txidText := fun _ => ""
  addressPages := fun _ => []

def seenAt (txid : Txid) : TxSeen := ⟨⟨txid, 5, none⟩, none, 0⟩

def pageOf (page : UInt16) (chainHistory : List (List TxSeen)) : WaterfallsResult :=
  ⟨AList.singleton "external" chainHistory, page, none, none⟩

def first : WaterfallsResult := pageOf 0 (List.replicate 999 [] ++ [[seenAt 8]])

variable (used : Bool)

def second : WaterfallsResult := pageOf 1 [if used then [seenAt 9] else []]

def responses : List Response := [first, second used].map .ok

def cache : Cache := (Wollet.fresh .empty).cache

theorem understands : Understands env client cache where
  derive := by
    intro chain child
    cases chain with
    | external => exact ⟨_, rfl⟩
    | internal => exact ⟨_, rfl⟩
  parse := fun desc => ⟨_, rfl⟩
  baseDesc := ⟨_, rfl⟩
  notElip151 := rfl
  notUtxoOnly := rfl

theorem pageOf_total (page : UInt16) (chainHistory : List (List TxSeen)) :
    (pageOf page chainHistory).total = chainHistory.length := rfl

theorem first_full : ¬ first.total < waterfallsMaxAddresses := by
  rw [first, pageOf_total, length_append, length_replicate, waterfallsMaxAddresses]
  decide

theorem second_short : (second used).total < waterfallsMaxAddresses := by
  rw [second, pageOf_total, length_singleton, waterfallsMaxAddresses]
  decide

theorem pages_read : pagesRead (responses used) = [first, second used] := by
  simp [responses, pagesRead, first_full, second_short]

theorem wellFormed : WellFormed client 0 (pagesRead (responses used)) := by
  rw [pages_read]
  refine ⟨fun k result hk => ?_, fun result hresult entry hentry => ?_, fun result hresult => ?_⟩
  · rcases k with _ | _ | k
    · cases hk
      rfl
    · cases hk
      rfl
    · simp at hk
  · rcases mem_pair.1 hresult with rfl | rfl
    · cases mem_singleton.1 hentry
      rw [length_append, length_replicate, waterfallsMaxAddresses]
      decide
    · cases mem_singleton.1 hentry
      rw [length_singleton, waterfallsMaxAddresses]
      decide
  · rcases mem_pair.1 hresult with rfl | rfl
    · exact nodup_singleton _
    · exact nodup_singleton _

theorem returns : ∃ data, getHistoryWaterfalls env client cache (responses used) = .ok data := by
  apply getHistoryWaterfalls_returns understands
  · exact ⟨second used, by simp, second_short used⟩
  · intro result hresult
    rcases mem_pair.1 hresult with rfl | rfl
    · rfl
    · rfl

/-- The used script on the second page has index 1000; the index that comes back is not behind
it. -/
theorem waterfalls_not_global : ∃ data,
    getHistoryWaterfalls env client cache (responses true) = .ok data ∧
      WellFormed client 0 (pagesRead (responses true)) ∧
      ¬ YieldsGlobal env client cache (responses true) data := by
  obtain ⟨data, hdata⟩ := returns true
  refine ⟨data, hdata, wellFormed true, fun h => ?_⟩
  have hseen : ⟨.external, 1, 0, [seenAt 9]⟩ ∈ seenIn client (responses true) := by
    rw [seenIn, pages_read]
    exact mem_append_right _ (mem_singleton_self _)
  have hpage := (waterfalls_lastUnused_iff (wellFormed true) hdata .external).1
    (h.lastUnused .external) _ hseen rfl (by simp)
  exact absurd hpage (by decide)

/-- With no used script on the second page it is. -/
theorem waterfalls_global_first : ∃ data,
    getHistoryWaterfalls env client cache (responses false) = .ok data ∧
      YieldsGlobal env client cache (responses false) data := by
  obtain ⟨data, hdata⟩ := returns false
  refine ⟨data, hdata, (waterfalls_global_iff env client cache (responses false) data
    (wellFormed false) hdata).2 ?_⟩
  intro s hs hused
  rw [seenIn, pages_read] at hs
  obtain ⟨result, hresult, hs⟩ := mem_flatMap.1 hs
  obtain ⟨entry, hentry, hs⟩ := mem_flatMap.1 hs
  obtain ⟨-, hpage, hget⟩ := mem_seenOf.1 hs
  rcases mem_pair.1 hresult with rfl | rfl
  · exact hpage
  · cases mem_singleton.1 hentry
    have hmem := mem_of_getElem? hget
    exact absurd (mem_singleton.1 hmem) hused

end SecondPage

end Swk
