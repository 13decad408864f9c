import Kitaza.OutboxDrain

/-!
# Whether a refused store holds back the others

A cycle cuts the waiting rows into batches of 200 from the oldest, and a push
that is refused as a whole ends it, with the stores that come after it in the
batch and every later batch unsent. So the rows of the other stores are all sent
if none of them is younger than a row of a refused store; and where the server
applies every row it takes, exactly if each goes in a batch before the first
with a refused store's row, or in that one beside an older row of its own store
that stands before the refused one.
-/

namespace Kitaza.RefusedStores

open KeyedTable Primitives SyncQueue OutboxDelivery SyncCoordinator StoreRefusal OutboxDrain

section

variable {β σ : Type*} {size : ℕ} (key : β → σ) {taken : σ → Prop} {l : List β}

/-- Whether everything of a key that is taken comes in a block before everything
of one that is not, or in the same block together with something of its own key
that stands before that. -/
def SentInTime (size : ℕ) (key : β → σ) (taken : σ → Prop) (l : List β) : Prop :=
  ∀ i c f d, l[i]? = some c → l[f]? = some d → taken (key c) → ¬ taken (key d) →
    i / size < f / size ∨ i / size = f / size ∧
      ∃ j e, l[j]? = some e ∧ j < f ∧ j / size = f / size ∧ key e = key c

/-- Where not everything satisfies something, there is a first that does not. -/
theorem exists_first {p : β → Prop} (h : ¬ ∀ c ∈ l, p c) :
    ∃ before d after, l = before ++ d :: after ∧ (∀ e ∈ before, p e) ∧ ¬ p d := by
  induction l with
  | nil => exact absurd (fun c hc => by cases hc) h
  | cons c rest ih =>
    by_cases hc : p c
    · obtain ⟨before, d, after, rfl, hbefore, hd⟩ := ih fun hrest =>
        h (List.forall_mem_cons.mpr ⟨hc, hrest⟩)
      exact ⟨c :: before, d, after, rfl, List.forall_mem_cons.mpr ⟨hc, hbefore⟩, hd⟩
    · exact ⟨[], c, rest, rfl, by simp, hc⟩

/-- Once the first is not taken, nothing may be left that is. -/
theorem sentInTime_of_head {d : β} {rest : List β} (hd : ¬ taken (key d)) :
    SentInTime size key taken (d :: rest) ↔ ∀ c ∈ d :: rest, ¬ taken (key c) := by
  constructor
  · intro h c hc ht
    obtain ⟨i, hi⟩ := List.mem_iff_getElem?.mp hc
    rcases h i c 0 d hi rfl ht hd with hlt | ⟨-, j, e, -, hj, -⟩
    · rw [Nat.zero_div] at hlt
      exact Nat.not_lt_zero _ hlt
    · exact Nat.not_lt_zero _ hj
  · intro h i c f d' hi _ hc _
    exact absurd hc (h c (List.mem_of_getElem? hi))

/-- A first block that is taken throughout makes no difference. -/
theorem sentInTime_drop (hsize : 0 < size) (h : ∀ c ∈ l.take size, taken (key c)) :
    SentInTime size key taken (l.drop size) ↔ SentInTime size key taken l := by
  have hlate : ∀ f d, l[f]? = some d → ¬ taken (key d) → size ≤ f := by
    intro f d hf hd
    by_contra hlt
    have hmem : d ∈ l.take size :=
      List.mem_of_getElem? (i := f) (by rwa [List.getElem?_take_of_lt (not_le.mp hlt)])
    exact hd (h d hmem)
  have hshift : ∀ i, (size + i) / size = i / size + 1 := fun i => Nat.add_div_left i hsize
  constructor
  · intro hrest i c f d hi hf hc hd
    obtain ⟨f, rfl⟩ := Nat.exists_eq_add_of_le (hlate f d hf hd)
    by_cases hlt : i < size
    · left
      rw [Nat.div_eq_of_lt hlt, hshift]
      exact Nat.succ_pos _
    · obtain ⟨i, rfl⟩ := Nat.exists_eq_add_of_le (not_lt.mp hlt)
      rw [hshift, hshift]
      rcases hrest i c f d (by rwa [List.getElem?_drop]) (by rwa [List.getElem?_drop]) hc hd with
        hbefore | ⟨hsame, j, e, hj, hjf, hjb, hkey⟩
      · exact Or.inl (Nat.succ_lt_succ hbefore)
      · rw [List.getElem?_drop] at hj
        exact Or.inr ⟨by rw [hsame], size + j, e, hj, Nat.add_lt_add_left hjf size,
          by rw [hshift, hjb], hkey⟩
  · intro hall i c f d hi hf hc hd
    rw [List.getElem?_drop] at hi hf
    have hboth := hall (size + i) c (size + f) d hi hf hc hd
    rw [hshift, hshift] at hboth
    rcases hboth with hbefore | ⟨hsame, j, e, hj, hjf, hjb, hkey⟩
    · exact Or.inl (Nat.lt_of_succ_lt_succ hbefore)
    · have hsj : size ≤ j := by
        by_contra hlt
        rw [Nat.div_eq_of_lt (not_le.mp hlt)] at hjb
        exact Nat.succ_ne_zero _ hjb.symm
      obtain ⟨j, rfl⟩ := Nat.exists_eq_add_of_le hsj
      rw [hshift] at hjb
      exact Or.inr ⟨Nat.succ.inj hsame, j, e, by rwa [List.getElem?_drop],
        Nat.lt_of_add_lt_add_left hjf, Nat.succ.inj hjb, hkey⟩

/-- A first block with something that is not taken: what is taken must come in
it, with its key in front of that. -/
theorem sentInTime_block (hsize : 0 < size) {before after : List β} {d : β}
    (hblock : l.take size = before ++ d :: after) (hbefore : ∀ e ∈ before, taken (key e))
    (hd : ¬ taken (key d)) :
    SentInTime size key taken l ↔
      (∀ c ∈ l.take size, taken (key c) → ∃ e ∈ before, key e = key c) ∧
        ∀ c ∈ l.drop size, ¬ taken (key c) := by
  have hlen : (before ++ d :: after).length ≤ size := by
    rw [← hblock]
    exact List.length_take_le size l
  rw [List.length_append, List.length_cons] at hlen
  have hat : ∀ j < size, l[j]? = (before ++ d :: after)[j]? := fun j hj => by
    rw [← hblock, List.getElem?_take_of_lt hj]
  have hdat : l[before.length]? = some d := by
    rw [hat _ (by omega)]
    simp
  have hdblock : before.length / size = 0 := Nat.div_eq_of_lt (by omega)
  -- what stands in front of the one that is not taken
  have hfront : ∀ j e, l[j]? = some e → j < before.length → e ∈ before := by
    intro j e he hj
    rw [hat j (by omega), List.getElem?_append_left hj] at he
    exact List.mem_of_getElem? he
  constructor
  · intro h
    have hfirst : ∀ i c, l[i]? = some c → taken (key c) → i < size ∧
        ∃ e ∈ before, key e = key c := by
      intro i c hi ht
      rcases h i c before.length d hi hdat ht hd with hlt | ⟨hsame, j, e, he, hj, -, hkey⟩
      · rw [hdblock] at hlt
        exact absurd hlt (Nat.not_lt_zero _)
      · rw [hdblock, Nat.div_eq_zero_iff] at hsame
        exact ⟨hsame.resolve_left hsize.ne', e, hfront j e he hj, hkey⟩
    constructor
    · intro c hc ht
      obtain ⟨i, hi⟩ := List.mem_iff_getElem?.mp (List.mem_of_mem_take hc)
      exact (hfirst i c hi ht).2
    · intro c hc ht
      obtain ⟨i, hi⟩ := List.mem_iff_getElem?.mp hc
      rw [List.getElem?_drop] at hi
      exact absurd (hfirst _ c hi ht).1 (by omega)
  · rintro ⟨hfirst, hlater⟩ i c f d' hi hf hc hd'
    have hi' : i < size := by
      by_contra hge
      obtain ⟨i, rfl⟩ := Nat.exists_eq_add_of_le (not_lt.mp hge)
      exact hlater c (List.mem_of_getElem? (i := i) (by rwa [List.getElem?_drop])) hc
    obtain ⟨e, he, hkey⟩ := hfirst c
      (List.mem_of_getElem? (i := i) (by rwa [List.getElem?_take_of_lt hi'])) hc
    obtain ⟨j, hj⟩ := List.mem_iff_getElem?.mp he
    have hjlt : j < before.length := (List.getElem?_eq_some_iff.mp hj).1
    have hje : l[j]? = some e := by
      rw [hat j (by omega), List.getElem?_append_left hjlt]
      exact hj
    rw [Nat.div_eq_of_lt hi']
    by_cases hf' : f < size
    · rw [Nat.div_eq_of_lt hf']
      have hjf : j < f := by
        by_contra hge
        rw [hat f hf', List.getElem?_append_left (by omega)] at hf
        exact hd' (hbefore d' (List.mem_of_getElem? hf))
      exact Or.inr ⟨rfl, j, e, hje, hjf, Nat.div_eq_of_lt (by omega), hkey⟩
    · exact Or.inl (Nat.div_pos (not_lt.mp hf') hsize)

end

variable {α : Type*}

/-- The server takes every push to a store. -/
def Takes (server : Server α) (storeId : Uuid) : Prop :=
  ∀ changes, ∃ answer, server.push storeId changes = .ok answer

/-- The server refuses every push to a store as a whole. -/
def Refuses (server : Server α) (storeId : Uuid) : Prop :=
  ∀ changes, ∃ error, server.push storeId changes = .error error

/-- Every row of a push that is taken is applied. -/
def AppliesTaken (server : Server α) : Prop :=
  ∀ storeId changes answer, server.push storeId changes = .ok answer →
    ∀ c ∈ changes, answer.applied (key c) = true ∧ answer.rejected (key c) = none

/-- No row of a store that takes pushes waits to be sent. -/
def NoneLeft (server : Server α) (activeStoreId : Uuid) (q : Queue α) : Prop :=
  ∀ k r, q.rows.find? k = some r → r.attempts < maxAttempts →
    ¬ Takes server (storeOf activeStoreId r)

/-- Every waiting row of a store that takes pushes is older than those of
the stores that may refuse one. -/
def TakenFirst (server : Server α) (activeStoreId : Uuid) (q : Queue α) : Prop :=
  ∀ k r k' r', q.rows.find? k = some r → q.rows.find? k' = some r' →
    r.attempts < maxAttempts → r'.attempts < maxAttempts →
    Takes server (storeOf activeStoreId r) → ¬ Takes server (storeOf activeStoreId r') → k < k'

/-- Whether the waiting rows of the stores that take pushes go out before a
store that does not ends the cycle. -/
def AllSentInTime (server : Server α) (activeStoreId : Uuid) (q : Queue α) : Prop :=
  SentInTime pushBatchSize (fun c => storeOf activeStoreId c.row) (Takes server) (waiting q)

theorem noneLeft_iff {server : Server α} {activeStoreId : Uuid} {q : Queue α} :
    NoneLeft server activeStoreId q ↔
      ∀ c ∈ waiting q, ¬ Takes server (storeOf activeStoreId c.row) := by
  constructor
  · intro h c hc
    obtain ⟨hr, hwait⟩ := mem_waiting.mp hc
    exact h c.rowId c.row hr hwait
  · intro h k r hr hwait
    exact h ⟨k, r⟩ (mem_waiting.mpr ⟨hr, hwait⟩)

/-- The rows of a batch that go to a store some row of a list goes to. -/
def sentWith (activeStoreId : Uuid) (before batch : List (QueuedChange α)) : List ℕ :=
  (batch.filter fun c => before.any fun e =>
    decide (storeOf activeStoreId e.row = storeOf activeStoreId c.row)).map QueuedChange.rowId

theorem mem_sentWith {activeStoreId : Uuid} {before batch : List (QueuedChange α)} {k : ℕ} :
    k ∈ sentWith activeStoreId before batch ↔ ∃ c ∈ batch, c.rowId = k ∧
      ∃ e ∈ before, storeOf activeStoreId e.row = storeOf activeStoreId c.row := by
  simp only [sentWith, List.mem_map, List.mem_filter, List.any_eq_true, decide_eq_true_eq]
  constructor
  · rintro ⟨c, ⟨hc, he⟩, hk⟩
    exact ⟨c, hc, hk, he⟩
  · rintro ⟨c, hc, hk, he⟩
    exact ⟨c, ⟨hc, he⟩, hk⟩

/-- Only which rows are cleared matters. -/
theorem clearRows_congr {a b : List ℕ} (h : ∀ k, k ∈ a ↔ k ∈ b) (q : Queue α) :
    clearRows a q = clearRows b q := by
  have hcontains : ∀ k, a.contains k = b.contains k := fun k => by
    rw [List.contains_eq_mem, List.contains_eq_mem]
    exact decide_eq_decide.mpr (h k)
  simp only [clearRows, hcontains]

section

variable {server : Server α} {activeStoreId : Uuid}

/-- A store that takes pushes is sent all its rows of the batch, and the others
follow. -/
theorem pushStores_byStore_cons (happlies : AppliesTaken server) {c : QueuedChange α}
    (hc : Takes server (storeOf activeStoreId c.row)) (cs : List (QueuedChange α))
    (acceptedAny : Bool) (q : Queue α) :
    pushStores server (byStore activeStoreId (c :: cs)) acceptedAny q =
      pushStores server (byStore activeStoreId
          (cs.filter fun d => storeOf activeStoreId d.row ≠ storeOf activeStoreId c.row)) true
        (clearRows (sentWith activeStoreId [c] (c :: cs)) q) := by
  have hsent : sentWith activeStoreId [c] (c :: cs) = ((c :: cs).filter fun d =>
      storeOf activeStoreId d.row = storeOf activeStoreId c.row).map QueuedChange.rowId := by
    rw [sentWith]
    congr 1
    apply List.filter_congr
    intro d _
    rw [List.any_cons, List.any_nil, Bool.or_false]
    exact decide_eq_decide.mpr eq_comm
  obtain ⟨answer, ha⟩ := hc ((c :: cs).filter fun d =>
    storeOf activeStoreId d.row = storeOf activeStoreId c.row)
  rw [hsent, byStore_cons, pushStores, pushStore, ha]
  dsimp only
  rw [readAnswer_of_applied (happlies _ _ _ ha)]
  simp

/-- Sending the store of the first row and then those of the others is sending
them all. -/
theorem mem_sentWith_cons {c : QueuedChange α} {before after : List (QueuedChange α)} {k : ℕ} :
    k ∈ sentWith activeStoreId [c] (c :: (before ++ after)) ++ sentWith activeStoreId
        (before.filter fun d => storeOf activeStoreId d.row ≠ storeOf activeStoreId c.row)
        ((before ++ after).filter fun d =>
          storeOf activeStoreId d.row ≠ storeOf activeStoreId c.row) ↔
      k ∈ sentWith activeStoreId (c :: before) (c :: before ++ after) := by
  rw [List.mem_append, mem_sentWith, mem_sentWith, mem_sentWith, List.cons_append]
  constructor
  · rintro (⟨x, hx, hk, e, he, hs⟩ | ⟨x, hx, hk, e, he, hs⟩)
    · rw [List.mem_singleton] at he
      exact ⟨x, hx, hk, c, List.mem_cons_self, he ▸ hs⟩
    · exact ⟨x, List.mem_cons_of_mem _ (List.mem_filter.mp hx).1, hk, e,
        List.mem_cons_of_mem _ (List.mem_filter.mp he).1, hs⟩
  · rintro ⟨x, hx, hk, e, he, hs⟩
    by_cases hxc : storeOf activeStoreId x.row = storeOf activeStoreId c.row
    · exact Or.inl ⟨x, hx, hk, c, List.mem_cons_self, hxc.symm⟩
    · right
      have hx' : x ∈ before ++ after :=
        (List.mem_cons.mp hx).resolve_left fun h => hxc (h ▸ rfl)
      have he' : e ∈ before :=
        (List.mem_cons.mp he).resolve_left fun h => hxc (hs ▸ h ▸ rfl)
      exact ⟨x, List.mem_filter.mpr ⟨hx', decide_eq_true hxc⟩, hk, e,
        List.mem_filter.mpr ⟨he', decide_eq_true (hs ▸ hxc)⟩, hs⟩

/-- A batch of stores that take pushes goes through. -/
theorem pushStores_taken (happlies : AppliesTaken server) (n : ℕ) :
    ∀ (batch : List (QueuedChange α)) (acceptedAny : Bool) (q : Queue α), batch.length = n →
      (∀ c ∈ batch, Takes server (storeOf activeStoreId c.row)) →
      pushStores server (byStore activeStoreId batch) acceptedAny q =
        (clearRows (sentWith activeStoreId batch batch) q,
          .ok (acceptedAny || !batch.isEmpty)) := by
  induction n using Nat.strong_induction_on with
  | _ n ih =>
    intro batch acceptedAny q hn htaken
    cases batch with
    | nil => simp [byStore, pushStores, sentWith, clearRows_nil]
    | cons c cs =>
      rw [pushStores_byStore_cons happlies (htaken c List.mem_cons_self), ih _ ?_ _ _ _ rfl]
      · rw [clearRows_clearRows]
        have h := fun k => @mem_sentWith_cons _ activeStoreId c cs [] k
        simp only [List.append_nil] at h
        rw [clearRows_congr h]
        simp
      · intro d hd
        exact htaken d (List.mem_cons_of_mem _ (List.mem_filter.mp hd).1)
      · rw [← hn]
        exact Nat.lt_succ_of_le (List.length_filter_le _ _)

/-- The first store that refuses ends a batch: only the stores in front of it
are sent, each with all its rows. -/
theorem pushStores_refused (happlies : AppliesTaken server) {d : QueuedChange α}
    (hd : Refuses server (storeOf activeStoreId d.row)) (n : ℕ) :
    ∀ (before after : List (QueuedChange α)) (acceptedAny : Bool) (q : Queue α),
      before.length = n → (∀ c ∈ before, Takes server (storeOf activeStoreId c.row)) →
      ∃ failure, pushStores server (byStore activeStoreId (before ++ d :: after)) acceptedAny q =
        (clearRows (sentWith activeStoreId before (before ++ d :: after)) q, .error failure) := by
  induction n using Nat.strong_induction_on with
  | _ n ih =>
    intro before after acceptedAny q hn htaken
    cases before with
    | nil =>
      obtain ⟨error, he⟩ := hd ((d :: after).filter fun c =>
        storeOf activeStoreId c.row = storeOf activeStoreId d.row)
      refine ⟨translate false error, ?_⟩
      rw [List.nil_append, byStore_cons, pushStores, pushStore, he]
      simp [sentWith, clearRows_nil]
    | cons c before =>
      have hc := htaken c List.mem_cons_self
      have hdc : storeOf activeStoreId d.row ≠ storeOf activeStoreId c.row := fun h => by
        obtain ⟨answer, ha⟩ := hc []
        obtain ⟨error, he⟩ := hd []
        rw [h, ha] at he
        cases he
      obtain ⟨failure, hf⟩ := ih (before.filter fun e =>
          storeOf activeStoreId e.row ≠ storeOf activeStoreId c.row).length
        (by rw [← hn]; exact Nat.lt_succ_of_le (List.length_filter_le _ _)) _
        (after.filter fun e => storeOf activeStoreId e.row ≠ storeOf activeStoreId c.row) true
        (clearRows (sentWith activeStoreId [c] (c :: (before ++ d :: after))) q) rfl
        fun e he => htaken e (List.mem_cons_of_mem _ (List.mem_filter.mp he).1)
      refine ⟨failure, ?_⟩
      have hsplit : (before ++ d :: after).filter (fun e =>
          storeOf activeStoreId e.row ≠ storeOf activeStoreId c.row) =
          before.filter (fun e => storeOf activeStoreId e.row ≠ storeOf activeStoreId c.row) ++
            d :: after.filter fun e => storeOf activeStoreId e.row ≠
              storeOf activeStoreId c.row := by
        rw [List.filter_append, List.filter_cons_of_pos (by simpa using hdc)]
      rw [List.cons_append, pushStores_byStore_cons happlies hc, hsplit, hf, clearRows_clearRows,
        ← hsplit, clearRows_congr fun _ => mem_sentWith_cons, List.cons_append]

/-- The rows of a batch that are not sent wait on. -/
theorem waiting_clear_sentWith {q : Queue α} {before batch rest : List (QueuedChange α)}
    (h : waiting q = batch ++ rest) :
    waiting (clearRows (sentWith activeStoreId before batch) q) = (batch.filter fun c =>
      !before.any fun e =>
        decide (storeOf activeStoreId e.row = storeOf activeStoreId c.row)) ++ rest := by
  have hnodup := nodup_waiting q
  rw [h, List.map_append, List.nodup_append] at hnodup
  rw [waiting_clearRows, h, List.filter_append]
  congr 1
  · apply List.filter_congr
    intro c hc
    have hmem : c.rowId ∈ sentWith activeStoreId before batch ↔
        ∃ e ∈ before, storeOf activeStoreId e.row = storeOf activeStoreId c.row := by
      rw [mem_sentWith]
      constructor
      · rintro ⟨x, hx, hid, he⟩
        rwa [List.inj_on_of_nodup_map hnodup.1 hx hc hid] at he
      · exact fun he => ⟨c, hc, rfl, he⟩
    rw [List.contains_eq_mem, decide_eq_decide.mpr hmem, Bool.not_eq_eq_eq_not, Bool.not_not,
      Bool.eq_iff_iff, List.any_eq_true, decide_eq_true_eq]
    simp only [decide_eq_true_eq]
  · rw [List.filter_eq_self]
    intro c hc
    rw [List.contains_eq_mem, ← decide_not, decide_eq_true_eq, mem_sentWith]
    rintro ⟨x, hx, hid, -⟩
    exact hnodup.2.2 _ (List.mem_map_of_mem hx) _ (List.mem_map_of_mem hc) hid

/-- A batch makes no difference to what is sent in time. -/
theorem allSentInTime_pushStores (happlies : AppliesTaken server)
    (hassigned : ∀ storeId, Takes server storeId ∨ Refuses server storeId) (q : Queue α) :
    AllSentInTime server activeStoreId
        (pushStores server (byStore activeStoreId (pending pushBatchSize q)) false q).1 ↔
      AllSentInTime server activeStoreId q := by
  have hsplit : waiting q = pending pushBatchSize q ++ (waiting q).drop pushBatchSize := by
    rw [pending_eq, List.take_append_drop]
  by_cases htaken : ∀ c ∈ pending pushBatchSize q, Takes server (storeOf activeStoreId c.row)
  · rw [pushStores_taken happlies _ _ _ _ rfl htaken, AllSentInTime,
      waiting_clear_sentWith hsplit, List.filter_eq_nil_iff.mpr, List.nil_append]
    · rw [pending_eq] at htaken
      exact sentInTime_drop _ (by decide) htaken
    · intro c hc
      simp only [Bool.not_eq_true, Bool.not_eq_false', List.any_eq_true]
      exact ⟨c, hc, decide_eq_true rfl⟩
  · obtain ⟨before, d, after, hb, hbefore, hd⟩ := exists_first htaken
    obtain ⟨failure, hf⟩ := pushStores_refused happlies
      ((hassigned (storeOf activeStoreId d.row)).resolve_left hd) _ before after false q rfl hbefore
    rw [hb] at hsplit
    -- of the batch, the row that was refused leads what is left
    have hlead : (before ++ d :: after).filter (fun c => !before.any fun e =>
        decide (storeOf activeStoreId e.row = storeOf activeStoreId c.row)) =
        d :: after.filter fun c => !before.any fun e =>
          decide (storeOf activeStoreId e.row = storeOf activeStoreId c.row) := by
      rw [List.filter_append, List.filter_eq_nil_iff.mpr, List.nil_append,
        List.filter_cons_of_pos]
      · rw [Bool.not_eq_true', List.any_eq_false]
        exact fun e he hs => hd (of_decide_eq_true hs ▸ hbefore e he)
      · intro c hc
        rw [Bool.not_eq_true, Bool.not_eq_false', List.any_eq_true]
        exact ⟨c, hc, decide_eq_true rfl⟩
    rw [hb, hf, AllSentInTime, waiting_clear_sentWith hsplit, hlead, List.cons_append,
      sentInTime_of_head (fun c : QueuedChange α => storeOf activeStoreId c.row) hd,
      ← List.cons_append, ← hlead, AllSentInTime,
      sentInTime_block (fun c : QueuedChange α => storeOf activeStoreId c.row) (by decide)
        (by rw [← pending_eq, hb]) hbefore hd, ← pending_eq, hb]
    constructor
    · intro h
      constructor
      · intro c hc ht
        by_contra hn
        refine h c (List.mem_append_left _ (List.mem_filter.mpr ⟨hc, ?_⟩)) ht
        rw [Bool.not_eq_true', List.any_eq_false]
        exact fun e he hs => hn ⟨e, he, of_decide_eq_true hs⟩
      · exact fun c hc => h c (List.mem_append_right _ hc)
    · rintro ⟨hfirst, hlater⟩ c hc ht
      rcases List.mem_append.mp hc with hc | hc
      · obtain ⟨hc, hn⟩ := List.mem_filter.mp hc
        rw [Bool.not_eq_true', List.any_eq_false] at hn
        obtain ⟨e, he, hs⟩ := hfirst c hc ht
        exact hn e he (decide_eq_true hs)
      · exact hlater c hc ht

theorem allSentInTime_pushBatches (happlies : AppliesTaken server)
    (hassigned : ∀ storeId, Takes server storeId ∨ Refuses server storeId) (batches : ℕ)
    (q : Queue α) :
    AllSentInTime server activeStoreId (pushBatches server activeStoreId batches q).1 ↔
      AllSentInTime server activeStoreId q := by
  induction batches generalizing q with
  | zero => rfl
  | succ batches ih =>
    have h := @allSentInTime_pushStores _ _ activeStoreId happlies hassigned q
    rw [pushBatches]
    split
    · rfl
    next change changes hp =>
      rw [hp] at h
      split
      next q' failure he =>
        rw [he] at h
        exact h
      next q' he =>
        rw [he] at h
        exact h
      next q' he =>
        rw [he] at h
        exact (ih q').trans h

/-- Nor does any call. -/
theorem allSentInTime_run (happlies : AppliesTaken server)
    (hassigned : ∀ storeId, Takes server storeId ∨ Refuses server storeId) (calls : List Call)
    {s : Coordinator α} (hs : s.activeStoreId = some activeStoreId) :
    AllSentInTime server activeStoreId (run server calls s).outbox ↔
      AllSentInTime server activeStoreId s.outbox := by
  induction calls generalizing s with
  | nil => rfl
  | cons call calls ih =>
    refine (ih ((syncNow_activeStoreId server call s).trans hs)).trans ?_
    rcases syncNow_outbox server call s with h | ⟨storeId, hstore, h⟩
    · rw [h]
    · rw [hs] at hstore
      cases hstore
      rw [h, pushOutbox]
      exact allSentInTime_pushBatches happlies hassigned _ _

/-- A refused first request is to a store that does not take every push. -/
theorem not_takes_of_firstRefused {q : Queue α} (h : FirstRefused server activeStoreId q) :
    ∃ c cs, pending pushBatchSize q = c :: cs ∧ ¬ Takes server (storeOf activeStoreId c.row) := by
  obtain ⟨c, cs, error, hp, he⟩ := h
  refine ⟨c, cs, hp, fun ht => ?_⟩
  obtain ⟨answer, ha⟩ := ht ((c :: cs).filter fun d =>
    storeOf activeStoreId d.row = storeOf activeStoreId c.row)
  rw [he] at ha
  cases ha

/-- At rest nothing of a store that takes pushes is left exactly if all of it
would be sent in time. -/
theorem noneLeft_iff_of_stuck {s : Coordinator α} (hs : s.activeStoreId = some activeStoreId)
    (h : Stuck server s) : NoneLeft server activeStoreId s.outbox ↔
      AllSentInTime server activeStoreId s.outbox := by
  rw [noneLeft_iff, AllSentInTime]
  rcases h activeStoreId hs with hempty | hrefused
  · have hnil : waiting s.outbox = [] := by
      rw [pending_eq, List.take_eq_nil_iff] at hempty
      exact hempty.resolve_left (by decide)
    rw [hnil]
    exact ⟨fun _ i c f d hi => by simp at hi, fun _ c hc => by simp at hc⟩
  · obtain ⟨c, cs, hp, hn⟩ := not_takes_of_firstRefused hrefused
    rw [pending_eq] at hp
    match hw : waiting s.outbox with
    | [] =>
      rw [hw] at hp
      simp at hp
    | c' :: rest =>
      rw [hw, pushBatchSize, List.take_succ_cons, List.cons.injEq] at hp
      rw [← hp.1] at hn
      exact (sentInTime_of_head (fun c : QueuedChange α => storeOf activeStoreId c.row) hn).symm

/-- Cycles do not reorder the rows. -/
theorem TakenFirst.of_aged {q q' : Queue α} (h : TakenFirst server activeStoreId q)
    (haged : Aged q q') : TakenFirst server activeStoreId q' := by
  intro k r k' r' hr hr' hwait hwait' ht hn
  obtain ⟨s, hs, hstore, hle⟩ := haged k r hr
  obtain ⟨s', hs', hstore', hle'⟩ := haged k' r' hr'
  rw [storeOf, ← hstore] at ht
  rw [storeOf, ← hstore'] at hn
  exact h k s k' s' hs hs' (hle.trans_lt hwait) (hle'.trans_lt hwait') ht hn

/-- With the rows of the stores that take pushes in front, none of them is left
at rest. -/
theorem TakenFirst.noneLeft {s : Coordinator α} (hs : s.activeStoreId = some activeStoreId)
    (hfirst : TakenFirst server activeStoreId s.outbox) (h : Stuck server s) :
    NoneLeft server activeStoreId s.outbox := by
  intro k r hr hwait ht
  rcases h activeStoreId hs with hempty | hrefused
  · exact not_waiting_of_empty hempty hr hwait
  · obtain ⟨c, cs, hp, hn⟩ := not_takes_of_firstRefused hrefused
    have hc : c ∈ pending pushBatchSize s.outbox := by
      rw [hp]
      exact List.mem_cons_self
    obtain ⟨hfind, hwait'⟩ := mem_pending hc
    exact absurd (oldest_le hp hr hwait)
      (Nat.not_le_of_lt (hfirst k r c.rowId c.row hr hfind hwait hwait' ht hn))

/-- Calls of the owner always bring the outbox to rest. Whatever rows are
refused, nothing of a store that takes pushes is then left if all of it was
older than what the other stores have; where every row of a push that is taken
is applied, exactly if all of it was to be sent in time. -/
theorem none_left_iff_sentInTime (hrows : RowByRow server) {s : Coordinator α}
    (hs : s.activeStoreId = some activeStoreId) :
    (∀ calls : List Call, work s.outbox ≤ calls.countP Call.force →
      Settled server (run server calls s)) ∧
    (TakenFirst server activeStoreId s.outbox → ∀ calls : List Call,
      Settled server (run server calls s) → (run server calls s).enabled = true →
        NoneLeft server activeStoreId (run server calls s).outbox) ∧
    ((∀ storeId, Takes server storeId ∨ Refuses server storeId) → AppliesTaken server →
      ∀ calls : List Call, Settled server (run server calls s) →
        (run server calls s).enabled = true →
          (NoneLeft server activeStoreId (run server calls s).outbox ↔
            AllSentInTime server activeStoreId s.outbox)) := by
  have hactive : ∀ calls, (run server calls s).activeStoreId = some activeStoreId :=
    fun calls => (run_activeStoreId server calls s).trans hs
  refine ⟨fun calls => settled_run hrows calls s, ?_, ?_⟩
  · intro hfirst calls hsettled hon
    exact (hfirst.of_aged (aged_run server calls s)).noneLeft (hactive calls)
      ((settled_iff_stuck hrows hon).mp hsettled)
  · intro hassigned happlies calls hsettled hon
    rw [noneLeft_iff_of_stuck (hactive calls) ((settled_iff_stuck hrows hon).mp hsettled)]
    exact allSentInTime_run happlies hassigned calls hs

end

/-- The owner's plan takes entries in store 1 only. -/
def oneStorePlan : Server Unit where
  push storeId _ :=
    if storeId = ⟨1⟩ then .ok ⟨fun _ => true, fun _ => none⟩
    else .error ⟨.badResponse, some 402, some "upgrade_required",
      some "your plan takes new entries in 1 store"⟩
  pull _ := .ok false

/-- A phone with store 1 open and a sale to send to each of some stores. -/
def salesOf (stores : List Uuid) : Coordinator Unit where
  isCloud := true
  activeStoreId := some ⟨1⟩
  outbox := stores.foldl (fun q storeId =>
    enqueue .sales ⟨10 + q.rows.entries.length⟩ (.record ()) (some storeId) q) (Queue.empty Unit)
  sessionLost := false
  consecutiveFailures := 0
  retryAfter := none
  phase := .idle
  lastSyncedAt := none
  lastError := none

theorem oneStorePlan_applies : AppliesTaken oneStorePlan := by
  intro storeId changes answer h c _
  simp only [oneStorePlan] at h
  split_ifs at h
  cases h
  exact ⟨rfl, rfl⟩

theorem oneStorePlan_rowByRow : RowByRow oneStorePlan := fun storeId changes answer h c hc =>
  Or.inl (oneStorePlan_applies storeId changes answer h c hc).1

theorem oneStorePlan_takes : Takes oneStorePlan ⟨1⟩ := fun _ => ⟨_, rfl⟩

theorem oneStorePlan_assigned (storeId : Uuid) :
    Takes oneStorePlan storeId ∨ Refuses oneStorePlan storeId := by
  by_cases h : storeId = ⟨1⟩
  · exact Or.inl (h ▸ oneStorePlan_takes)
  · exact Or.inr fun changes => ⟨_, if_neg h⟩

theorem oneStorePlan_not_takes : ¬ Takes oneStorePlan ⟨2⟩ := fun h => by
  obtain ⟨answer, ha⟩ := h []
  cases ha

/-- The sale of store 1 behind that of store 2 goes out with the one in front of
it; without that one it is never sent, however often the owner syncs. -/
theorem none_left_iff_sentInTime_sales :
    NoneLeft oneStorePlan ⟨1⟩
        (run oneStorePlan (List.replicate 15 ⟨true, 0⟩) (salesOf [⟨1⟩, ⟨2⟩, ⟨1⟩])).outbox ∧
      ¬ NoneLeft oneStorePlan ⟨1⟩
        (run oneStorePlan (List.replicate 10 ⟨true, 0⟩) (salesOf [⟨2⟩, ⟨1⟩])).outbox := by
  constructor
  · have h := @none_left_iff_sentInTime _ oneStorePlan ⟨1⟩ oneStorePlan_rowByRow
      (salesOf [⟨1⟩, ⟨2⟩, ⟨1⟩]) rfl
    have hblock : (waiting (salesOf [⟨1⟩, ⟨2⟩, ⟨1⟩]).outbox).take pushBatchSize =
        [⟨1, some ⟨1⟩, .sales, ⟨10⟩, .record (), 0, none⟩] ++
          ⟨2, some ⟨2⟩, .sales, ⟨11⟩, .record (), 0, none⟩ ::
            [⟨3, some ⟨1⟩, .sales, ⟨12⟩, .record (), 0, none⟩] := by decide
    refine (h.2.2 oneStorePlan_assigned oneStorePlan_applies _ (h.1 _ (by decide)) (by decide)).mpr
      ((sentInTime_block _ (by decide) hblock ?_ oneStorePlan_not_takes).mpr ⟨?_, ?_⟩)
    · intro e he
      rw [List.mem_singleton.mp he]
      exact oneStorePlan_takes
    · intro c hc ht
      refine ⟨_, List.mem_singleton_self _, ?_⟩
      rw [hblock] at hc
      simp only [List.singleton_append, List.mem_cons, List.not_mem_nil, or_false] at hc
      rcases hc with rfl | rfl | rfl
      · rfl
      · exact absurd ht oneStorePlan_not_takes
      · rfl
    · intro c hc
      have hnone : (waiting (salesOf [⟨1⟩, ⟨2⟩, ⟨1⟩]).outbox).drop pushBatchSize = [] := by decide
      rw [hnone] at hc
      cases hc
  · have h := @none_left_iff_sentInTime _ oneStorePlan ⟨1⟩ oneStorePlan_rowByRow
      (salesOf [⟨2⟩, ⟨1⟩]) rfl
    rw [h.2.2 oneStorePlan_assigned oneStorePlan_applies _ (h.1 _ (by decide)) (by decide)]
    intro hsent
    rcases hsent 1 ⟨2, some ⟨1⟩, .sales, ⟨11⟩, .record (), 0, none⟩ 0
      ⟨1, some ⟨2⟩, .sales, ⟨10⟩, .record (), 0, none⟩ (by decide) (by decide) oneStorePlan_takes
      oneStorePlan_not_takes with hlt | ⟨-, j, e, -, hj, -⟩
    · exact absurd hlt (by decide)
    · exact absurd hj (Nat.not_lt_zero _)

/-- A refused store does hold back the others. -/
theorem refused_store_holds_back : ¬ ∀ (server : Server Unit) (s : Coordinator Unit)
    (activeStoreId : Uuid), RowByRow server → s.enabled = true →
      s.activeStoreId = some activeStoreId → Settled server s →
        NoneLeft server activeStoreId s.outbox := by
  intro h
  have hstuck : Stuck oneStorePlan (salesOf [⟨2⟩, ⟨1⟩]) := by
    intro storeId hs
    cases hs
    exact Or.inr ⟨⟨1, some ⟨2⟩, .sales, ⟨10⟩, .record (), 0, none⟩,
      [⟨2, some ⟨1⟩, .sales, ⟨11⟩, .record (), 0, none⟩], _, by decide, rfl⟩
  exact h oneStorePlan (salesOf [⟨2⟩, ⟨1⟩]) ⟨1⟩ oneStorePlan_rowByRow rfl rfl hstuck.settled 2
    ⟨some ⟨1⟩, .sales, ⟨11⟩, .record (), 0, none⟩ (by decide) (by decide) oneStorePlan_takes

end Kitaza.RefusedStores
