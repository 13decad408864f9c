import Kitaza.PhoneTraces

/-!
# A phone handed to someone else

Signing out forgets the tokens, the settings and the tables one after the
other, and calls back none of the requests on their way. The phone is clean
for the next person as long as no page asked for before the tables were
wiped is applied after it, and no cursor of a pull that was under way when
its store's cursor was cleared is written after it.
-/

namespace Kitaza.PhoneHandover

open KeyedTable Primitives Access Schema SaleRepository SyncPull PullCompleteness PhoneStorage
  DownloadCursor PhoneTraces

/-- What holds at every moment: the record speaks of the pulls in flight, the
token is the holder's, and so is everything on the phone or on its way. -/
structure Kept (w : World) (t : Traces) : Prop where
  /-- Only old phones have the single cursor. -/
  legacy : w.preferences.legacyCursor = none
  /-- Every pull has its entry. -/
  abreast : Abreast w.pulls t.flights
  /-- The token is the holder's. -/
  token : ∀ person, w.token = some person → t.holder = some person
  /-- The tables, and the pages on their way to them. -/
  held : ∀ person, t.holder = some person → Holds (· = person) w.db t
  /-- The cursors, and those on their way to be stored. -/
  points : ∀ person, t.holder = some person →
    Points (fun _ path => ∀ other ∈ path, other = person) w.preferences.cursors t

/-- Nothing is left of anyone, and nothing is on its way back. -/
structure Blank (w : World) (t : Traces) : Prop where
  /-- The phone holds no token. -/
  token : w.token = none
  /-- It is not set up. -/
  onboarded : w.preferences.onboarded = false
  /-- No table holds anything, and no page would be applied in time. -/
  empty : Holds (fun _ => False) w.db t
  /-- No cursor is stored, and none would be written in time. -/
  unpointed : Points (fun _ _ => False) w.preferences.cursors t

/-- The settings that tell whose phone it is. -/
inductive Field where
  | onboarded
  | storageMode
  | owner
  | access
  | session
  deriving DecidableEq

/-- The setting an effect writes. -/
def field : Effect → Option Field
  | .writeOnboarded => some .onboarded
  | .writeStorageMode _ => some .storageMode
  | .saveOwner _ => some .owner
  | .writeAccess _ => some .access
  | .select _ => some .session
  | _ => none

/-- A setting is as it is on a phone of this person. -/
def Right (person : Person) (w : World) : Field → Prop
  | .onboarded => w.preferences.onboarded = true
  | .storageMode => w.preferences.storageMode = .cloud
  | .owner => w.db.owner = some person.ownerId
  | .access => ∃ access, w.preferences.access = some access ∧ access.staffId = person.staffId
  | .session => ∀ session ∈ w.session, session.person = person

/-- An effect that leaves the phone to this person. -/
def Keeps (person : Person) : Effect → Prop
  | .saveTokens other => other = person
  | .saveOwner owner => owner = person.ownerId
  | .writeAccess access => access.staffId = person.staffId
  | .writeStorageMode mode => mode = .cloud
  | .select session => ∃ own, session = some own ∧ own.person = person
  | .selectRefreshed session => session.person = person
  | .saveStore _ | .writeActiveStoreId _ | .writeOnboarded | .clearSyncCursor _
  | .forgetPrivateRecords _ _ _ => True
  | _ => False

/-- The phone is one person's, or will be when the rest of an operation is
carried out. -/
structure Owned (person : Person) (left : List Effect) (w : World) (t : Traces) : Prop where
  /-- It is theirs by the record. -/
  holder : t.holder = some person
  /-- It holds their token. -/
  token : w.token = some person
  /-- Its settings are theirs, or will be written. -/
  right : ∀ f, (∃ e ∈ left, field e = some f) ∨ Right person w f
  /-- What is left to do leaves it to them. -/
  keeps : ∀ e ∈ left, Keeps person e

/-- Whether an effect forgets one of the settings, or the tokens. -/
def forgets : Effect → Bool
  | .clearTokens | .removeActiveStore | .removeOnboarded | .removeAccess
  | .removeLegacyCursor => true
  | _ => false

/-- The settings are being forgotten. -/
structure Forgetting (left : List Effect) (w : World) (t : Traces) : Prop where
  /-- What is left to forget. -/
  forgets : ∀ e ∈ left, forgets e = true
  /-- The token goes. -/
  token : .clearTokens ∈ left ∨ w.token = none
  /-- The phone will no longer be set up. -/
  onboarded : .removeOnboarded ∈ left ∨ w.preferences.onboarded = false
  /-- The session in memory is still the holder's. -/
  session : ∀ session ∈ w.session, t.holder = some session.person

/-- The cursors are being cleared, one by one. -/
structure Dropping (ids : List Uuid) (w : World) (t : Traces) : Prop where
  /-- The phone holds no token. -/
  token : w.token = none
  /-- It is not set up. -/
  onboarded : w.preferences.onboarded = false
  /-- The session in memory is still the holder's. -/
  session : ∀ session ∈ w.session, t.holder = some session.person
  /-- The cursors left, and those on their way, are yet to be cleared. -/
  points : Points (fun storeId _ => storeId ∈ ids) w.preferences.cursors t

/-- What follows on clearing the phone: nobody, or someone else. -/
def welcome (session : AuthSession) : List Effect :=
  .saveTokens session.person :: (persist session ++ [.select (some session)])

/-- What follows on clearing the phone. -/
def Follows (left : List Effect) : Prop :=
  left = [.select none] ∨ ∃ session, left = welcome session

/-- How far the operation being carried out is, by what is left of it. -/
inductive Phase (w : World) (t : Traces) : List Effect → Prop
  | signedOut (hblank : Blank w t) (hsession : w.session = none) : Phase w t []
  | owned {person : Person} {left : List Effect} (howned : Owned person left w t) : Phase w t left
  | forgetting {left tail : List Effect} (hforgetting : Forgetting left w t)
      (htail : Follows tail) : Phase w t (left ++ .listSyncCursors :: .wipe :: tail)
  | dropping {ids : List Uuid} {tail : List Effect} (hdropping : Dropping ids w t)
      (htail : Follows tail) : Phase w t (ids.map .clearSyncCursor ++ .wipe :: tail)
  | blank {tail : List Effect} (hblank : Blank w t) (htail : Follows tail) : Phase w t tail

section

variable {server : Server} {w w' : World} {t t' : Traces} {a : Action} {person : Person}
  {left tail : List Effect}

/-- Nothing that follows on clearing the phone clears it again. -/
theorem Follows.keepsTables (h : Follows tail) : tail.any wipes = false := by
  rcases h with rfl | ⟨session, rfl⟩
  · rfl
  · have hpersist : (persist session).any wipes = false := by
      rw [persist, List.any_append, List.any_append, List.any_map]
      simp only [List.any_cons, List.any_nil, Bool.or_false, wipes, Bool.or_eq_false_iff,
        true_and]
      rw [List.any_eq_false]
      exact fun _ _ => Bool.false_ne_true
    simp only [welcome, List.any_cons, List.any_append, hpersist]
    rfl

/-- While the tables are yet to be wiped, the session is the holder's. -/
theorem Phase.session_of_wipes (h : Phase w t left) (hwipes : left.any wipes = true) :
    ∀ session ∈ w.session, t.holder = some session.person := by
  cases h with
  | signedOut => cases hwipes
  | owned howned =>
    obtain ⟨e, he, hwipe⟩ := List.any_eq_true.mp hwipes
    have hkeeps := howned.keeps e he
    cases e with
    | wipe => cases hkeeps
    | _ => cases hwipe
  | forgetting hforgetting => exact hforgetting.session
  | dropping hdropping => exact hdropping.session
  | blank _ htail =>
    rw [htail.keepsTables] at hwipes
    cases hwipes

/-- Who writes in time is the holder. -/
theorem writer_of_onTime (hk : Kept w t) (hp : Phase w t (underway w).flatten)
    (htime : OnTime ⟨w, t⟩ a) :
    ∀ table id row items, a = .write table id row items →
      ∃ person, w.session.map AuthSession.person = some person ∧ t.holder = some person := by
  rintro table id row items rfl
  obtain ⟨hsome, hcase⟩ := htime
  obtain ⟨session, hsession⟩ := Option.isSome_iff_exists.mp hsome
  have hmap : w.session.map AuthSession.person = some session.person := by
    rw [hsession]
    rfl
  refine ⟨session.person, hmap, ?_⟩
  rcases hcase with htoken | hwipes
  · exact hk.token _ (htoken.symm.trans hmap)
  · exact hp.session_of_wipes hwipes session hsession

/-- Nobody writes in time on a phone that was wiped. -/
theorem Blank.no_writer (hb : Blank w t) (hwipes : w.session = none ∨
      (underway w).flatten.any wipes = false) (htime : OnTime ⟨w, t⟩ a) :
    ∀ table id row items, a = .write table id row items →
      ∃ person, w.session.map AuthSession.person = some person ∧ False := by
  rintro table id row items rfl
  exfalso
  obtain ⟨hsome, hcase⟩ := htime
  obtain ⟨session, hsession⟩ := Option.isSome_iff_exists.mp hsome
  rcases hwipes with hnone | hwipes
  · rw [hnone] at hsession
    cases hsession
  · rcases hcase with htoken | hcase
    · change w.session.map AuthSession.person = w.token at htoken
      rw [hsession, hb.token] at htoken
      cases htoken
    · rw [hwipes] at hcase
      cases hcase

/-- Syncing and daily work keep what holds at every moment. -/
theorem Kept.synced (hk : Kept w t) (hp : Phase w t (underway w).flatten)
    (htime : OnTime ⟨w, t⟩ a) (hs : Synced w t a w' t') : Kept w' t' := by
  have hsame := hs.same
  refine ⟨hsame.legacy.trans hk.legacy, hs.abreast hk.abreast, ?_, ?_, ?_⟩
  · intro person hperson
    rw [hs.holder]
    exact hk.token person (hsame.token ▸ hperson)
  · intro person hholder
    rw [hs.holder] at hholder
    refine hs.holds (hk.held person hholder) ?_ ?_ htime
    · intro other hother
      exact Option.some.inj ((hk.token other hother).symm.trans hholder)
    · intro table id row items ha
      obtain ⟨writer, hsession, hwriter⟩ := writer_of_onTime hk hp htime table id row items ha
      exact ⟨writer, hsession, Option.some.inj (hwriter.symm.trans hholder)⟩
  · intro person hholder
    rw [hs.holder] at hholder
    refine hs.points (hk.points person hholder) ?_ htime
    rintro other hother storeId path hpath
    have hother : other = person :=
      Option.some.inj ((hk.token other hother).symm.trans hholder)
    rw [List.forall_mem_cons]
    refine ⟨hother, ?_⟩
    rcases hpath with rfl | hpath
    · exact fun _ h => absurd h List.not_mem_nil
    · exact hpath

/-- A phone that was cleared stays so. -/
theorem Blank.synced (hb : Blank w t) (hwipes : w.session = none ∨
      (underway w).flatten.any wipes = false) (htime : OnTime ⟨w, t⟩ a)
    (hs : Synced w t a w' t') : Blank w' t' := by
  have hsame := hs.same
  have hnone : ∀ person, w.token = some person → False := by
    intro person hperson
    rw [hb.token] at hperson
    cases hperson
  refine ⟨hsame.token.trans hb.token, hsame.onboarded.trans hb.onboarded, ?_, ?_⟩
  · exact hs.holds hb.empty hnone (hb.no_writer hwipes htime) htime
  · exact hs.points hb.unpointed (fun person hperson => (hnone person hperson).elim) htime

/-- A setting that is right stays so. -/
theorem Right.of_same {f : Field} (h : Right person w f) (hsame : SameAccount w w') :
    Right person w' f := by
  cases f with
  | onboarded => exact hsame.onboarded.trans h
  | storageMode => exact hsame.storageMode.trans h
  | owner => exact hsame.owner.trans h
  | access =>
    obtain ⟨access, haccess, hstaff⟩ := h
    exact ⟨access, hsame.access.trans haccess, hstaff⟩
  | session =>
    intro session hsession
    exact h session (hsame.session ▸ hsession)

/-- Syncing and daily work leave an operation where it is. -/
theorem Phase.synced (hp : Phase w t left) (hleft : left = (underway w).flatten)
    (htime : OnTime ⟨w, t⟩ a) (hs : Synced w t a w' t') : Phase w' t' left := by
  have hsame := hs.same
  cases hp with
  | signedOut hblank hsession =>
    exact .signedOut (hblank.synced (Or.inl hsession) htime hs) (hsame.session.trans hsession)
  | owned howned =>
    exact .owned ⟨hs.holder.trans howned.holder, hsame.token.trans howned.token,
      fun f => (howned.right f).imp_right fun h => h.of_same hsame, howned.keeps⟩
  | forgetting hforgetting htail =>
    refine .forgetting ⟨hforgetting.forgets, ?_, ?_, ?_⟩ htail
    · exact hforgetting.token.imp_right hsame.token.trans
    · exact hforgetting.onboarded.imp_right hsame.onboarded.trans
    · intro session hsession
      rw [hs.holder]
      exact hforgetting.session session (hsame.session ▸ hsession)
  | dropping hdropping htail =>
    refine .dropping ⟨hsame.token.trans hdropping.token,
      hsame.onboarded.trans hdropping.onboarded, ?_, ?_⟩ htail
    · intro session hsession
      rw [hs.holder]
      exact hdropping.session session (hsame.session ▸ hsession)
    · refine hs.points hdropping.points (fun person hperson => ?_) htime
      rw [hdropping.token] at hperson
      cases hperson
  | blank hblank htail =>
    exact .blank (hblank.synced (Or.inr (hleft ▸ htail.keepsTables)) htime hs) htail

end

section

variable {w : World} {t : Traces} {R : Person → Prop} {K : Uuid → List Person → Prop}
  {person : Person} {effect : Effect} {rest left tail : List Effect}

/-- A step of an operation keeps what holds at every moment, if tokens are
saved for the holder or on a phone that was cleared. -/
theorem Kept.perform (hk : Kept w t)
    (hsave : ∀ person, effect = .saveTokens person → t.holder = some person ∨ Blank w t) :
    Kept (perform w effect).1 (noteEffect w t rest effect) := by
  have hrows : ∀ {db : LocalDb}, db.rows = w.db.rows → db.saleItems = w.db.saleItems →
      db.queued = w.db.queued → ∀ person, t.holder = some person → Holds (· = person) db t :=
    fun h1 h2 h3 person hholder =>
      (hk.held person hholder).of_frame h1 h2 h3 rfl rfl rfl (hk.held person hholder).pages
  cases effect with
  | clearTokens => exact ⟨hk.legacy, hk.abreast, fun _ h => (by cases h), hk.held, hk.points⟩
  | saveTokens person =>
    refine ⟨hk.legacy, hk.abreast, fun other h => h, ?_, ?_⟩
    · rintro other hother
      obtain rfl := Option.some.inj hother
      have hheld : Holds (· = person) w.db t := by
        rcases hsave person rfl with hholder | hblank
        · exact hk.held person hholder
        · exact hblank.empty.mono fun _ h => h.elim
      exact hheld.of_frame rfl rfl rfl rfl rfl rfl hheld.pages
    · rintro other hother
      obtain rfl := Option.some.inj hother
      have hpoints : Points (fun _ path => ∀ other ∈ path, other = person)
          w.preferences.cursors t := by
        rcases hsave person rfl with hholder | hblank
        · exact hk.points person hholder
        · exact hblank.unpointed.mono fun _ _ h => h.elim
      exact ⟨hpoints.stored, hpoints.reached⟩
  | removeLegacyCursor => exact ⟨rfl, hk.abreast, hk.token, hk.held, hk.points⟩
  | listSyncCursors =>
    have hmark := dropUnlisted_eq w.preferences.cursors.ids
    refine ⟨hk.legacy, ?_, hk.token, ?_, ?_⟩
    · have habreast := hk.abreast.map (g := id) (fun _ => rfl)
        fun f => outline_eq (hmark f).1 (hmark f).2.1
      rwa [List.map_id] at habreast
    · exact fun person hholder => (hk.held person hholder).mark fun f =>
        ⟨(hmark f).2.1, fun h => (hmark f).2.2.2.1 ▸ h⟩
    · exact fun person hholder => (hk.points person hholder).mark fun f =>
        ⟨(hmark f).1, (hmark f).2.1, (hmark f).2.2.1, fun h => ((hmark f).2.2.2.2 h).1⟩
  | clearSyncCursor storeId =>
    have hmark := dropOne_eq storeId
    have hpulls : ∀ p : Pull, Pull.outline (if p.storeId = storeId then p.clear else p) =
        Pull.outline p := by
      intro p
      split_ifs <;> rfl
    simp only [noteEffect]
    split_ifs
    · refine ⟨hk.legacy, ?_, hk.token, ?_, ?_⟩
      · exact hk.abreast.map hpulls fun f => outline_eq (hmark f).1 (hmark f).2.1
      · exact fun person hholder => (hk.held person hholder).mark fun f =>
          ⟨(hmark f).2.1, fun h => (hmark f).2.2.2.1 ▸ h⟩
      · exact fun person hholder => ((hk.points person hholder).clear storeId).mark fun f =>
          ⟨(hmark f).1, (hmark f).2.1, (hmark f).2.2.1, fun h => ((hmark f).2.2.2.2 h).1⟩
    · refine ⟨hk.legacy, ?_, hk.token, hk.held, ?_⟩
      · have habreast := hk.abreast.map (k := id) hpulls fun _ => rfl
        rwa [List.map_id] at habreast
      · exact fun person hholder => (hk.points person hholder).clear storeId
  | wipe =>
    refine ⟨hk.legacy, ?_, hk.token, fun person _ => holds_wipe _ t, ?_⟩
    · exact hk.abreast.map (fun _ => rfl) fun _ => rfl
    · exact fun person hholder => (hk.points person hholder).mark fun f =>
        ⟨rfl, rfl, rfl, fun h => h⟩
  | forgetPrivateRecords table withheld storeId =>
    refine ⟨hk.legacy, ?_, hk.token, ?_, hk.points⟩
    · have habreast := hk.abreast.map (g := fun p => { p with full := false }) (k := id)
        (fun _ => rfl) fun _ => rfl
      rwa [List.map_id] at habreast
    · exact fun person hholder => (hk.held person hholder).forgetPrivateRecords table storeId
  | saveOwner owner => exact ⟨hk.legacy, hk.abreast, hk.token, hrows rfl rfl rfl, hk.points⟩
  | saveStore storeId => exact ⟨hk.legacy, hk.abreast, hk.token, hrows rfl rfl rfl, hk.points⟩
  | _ => exact ⟨hk.legacy, hk.abreast, hk.token, hk.held, hk.points⟩

/-- An effect that leaves the phone to a person leaves every setting right,
and makes right the one it writes. -/
theorem right_perform (hkeeps : Keeps person effect) {f : Field}
    (h : field effect = some f ∨ Right person w f) : Right person (perform w effect).1 f := by
  cases effect with
  | writeOnboarded =>
    cases f with
    | onboarded => rfl
    | _ => exact h.resolve_left (by simp [field])
  | writeStorageMode mode =>
    cases f with
    | storageMode => exact hkeeps
    | _ => exact h.resolve_left (by simp [field])
  | saveOwner owner =>
    cases f with
    | owner => exact congrArg some hkeeps
    | _ => exact h.resolve_left (by simp [field])
  | writeAccess access =>
    cases f with
    | access => exact ⟨access, rfl, hkeeps⟩
    | _ => exact h.resolve_left (by simp [field])
  | select session =>
    cases f with
    | session =>
      obtain ⟨own, rfl, hown⟩ := hkeeps
      rintro session hsession
      obtain rfl := Option.some.inj hsession
      exact hown
    | _ => exact h.resolve_left (by simp [field])
  | selectRefreshed session =>
    have h := h.resolve_left (by simp [field])
    cases f with
    | session =>
      intro own hown
      change own ∈ (if w.session.map AuthSession.owner = some session.owner then some session
        else w.session) at hown
      split_ifs at hown
      · obtain rfl := Option.some.inj hown
        exact hkeeps
      · exact h own hown
    | _ => exact h
  | saveTokens | saveStore | writeActiveStoreId | forgetPrivateRecords | clearSyncCursor =>
    have h := h.resolve_left (by simp [field])
    cases f <;> exact h
  | _ => exact hkeeps.elim

/-- A step of an operation that leaves the phone to a person. -/
theorem Owned.perform (ho : Owned person (effect :: rest) w t) :
    (perform w effect).2 = [] ∧
      Owned person rest (perform w effect).1 (noteEffect w t rest effect) := by
  have hkeeps := ho.keeps effect List.mem_cons_self
  have hrest : ∀ e ∈ rest, Keeps person e := fun e he => ho.keeps e (List.mem_cons_of_mem _ he)
  have hright : ∀ f, (∃ e ∈ rest, field e = some f) ∨
      Right person (DownloadCursor.perform w effect).1 f := by
    intro f
    rcases ho.right f with ⟨e, he, hfield⟩ | hright
    · rcases List.mem_cons.mp he with rfl | he
      · exact Or.inr (right_perform hkeeps (Or.inl hfield))
      · exact Or.inl ⟨e, he, hfield⟩
    · exact Or.inr (right_perform hkeeps (Or.inr hright))
  cases effect with
  | saveTokens other =>
    obtain rfl : other = person := hkeeps
    exact ⟨rfl, rfl, rfl, hright, hrest⟩
  | clearSyncCursor storeId =>
    refine ⟨rfl, ?_, ho.token, hright, hrest⟩
    simp only [noteEffect]
    split_ifs <;> exact ho.holder
  | clearTokens | wipe | listSyncCursors => exact hkeeps.elim
  | _ => exact ⟨rfl, ho.holder, ho.token, hright, hrest⟩

/-- Accepting a session leaves the phone to the session's person. -/
theorem keeps_welcome (session : AuthSession) :
    ∀ e ∈ welcome session, Keeps session.person e := by
  intro e he
  simp only [welcome, persist, List.mem_cons, List.mem_append, List.mem_map, List.not_mem_nil,
    or_false] at he
  rcases he with rfl | ((rfl | ⟨storeId, -, rfl⟩) | rfl | rfl | rfl | rfl) | rfl
  · rfl
  · rfl
  · trivial
  · rfl
  · rfl
  · trivial
  · trivial
  · exact ⟨session, rfl, rfl⟩

/-- A cleared phone takes in whoever follows, or nobody. -/
theorem Blank.perform (hb : Blank w t) (hf : Follows (effect :: rest)) :
    (DownloadCursor.perform w effect).2 = [] ∧
      Phase (DownloadCursor.perform w effect).1 (noteEffect w t rest effect) rest := by
  rcases hf with hnobody | ⟨session, hsession⟩
  · obtain ⟨rfl, rfl⟩ := List.cons.inj hnobody
    exact ⟨rfl, .signedOut ⟨hb.token, hb.onboarded, hb.empty, hb.unpointed⟩ rfl⟩
  · have hkeeps := keeps_welcome session
    rw [← hsession] at hkeeps
    obtain ⟨rfl, rfl⟩ := List.cons.inj hsession
    refine ⟨rfl, .owned ⟨rfl, rfl, fun f => Or.inl ?_, ?_⟩⟩
    · cases f with
      | onboarded => exact ⟨.writeOnboarded, by simp [persist], rfl⟩
      | storageMode => exact ⟨.writeStorageMode .cloud, by simp [persist], rfl⟩
      | owner => exact ⟨.saveOwner session.owner, by simp [persist], rfl⟩
      | access => exact ⟨.writeAccess session.access, by simp [persist], rfl⟩
      | session => exact ⟨.select (some session), by simp, rfl⟩
    · exact fun e he => hkeeps e (List.mem_cons_of_mem _ he)

/-- One more setting is forgotten. -/
theorem Forgetting.perform (hf : Forgetting (effect :: left) w t) :
    (DownloadCursor.perform w effect).2 = [] ∧
      Forgetting left (DownloadCursor.perform w effect).1 (noteEffect w t rest effect) := by
  have hforgets := hf.forgets effect List.mem_cons_self
  have hrest : ∀ e ∈ left, PhoneHandover.forgets e = true :=
    fun e he => hf.forgets e (List.mem_cons_of_mem _ he)
  have htoken := hf.token
  have honboarded := hf.onboarded
  rw [List.mem_cons] at htoken honboarded
  cases effect with
  | clearTokens =>
    exact ⟨rfl, hrest, Or.inr rfl, honboarded.imp_left fun h => h.resolve_left (by simp),
      hf.session⟩
  | removeOnboarded =>
    exact ⟨rfl, hrest, htoken.imp_left fun h => h.resolve_left (by simp), Or.inr rfl, hf.session⟩
  | removeActiveStore | removeAccess | removeLegacyCursor =>
    exact ⟨rfl, hrest, htoken.imp_left fun h => h.resolve_left (by simp),
      honboarded.imp_left fun h => h.resolve_left (by simp), hf.session⟩
  | _ => cases hforgets

/-- With every setting forgotten, the cursors to clear are listed; a pull
whose store has none is marked. -/
theorem Forgetting.list (hf : Forgetting [] w t) :
    Dropping w.preferences.cursors.keys w (noteEffect w t rest .listSyncCursors) := by
  refine ⟨hf.token.resolve_left List.not_mem_nil, hf.onboarded.resolve_left List.not_mem_nil,
    hf.session, ?_, ?_⟩
  · intro storeId raw hraw
    rw [Table.keys_eq_sort, Finset.mem_sort]
    exact Table.mem_ids_of_find? hraw
  · intro f hflight hdropped
    obtain ⟨g, -, rfl⟩ := List.mem_map.mp hflight
    obtain ⟨hstore, -, -, -, hdrop⟩ := dropUnlisted_eq w.preferences.cursors.ids g
    right
    rw [hstore, Table.keys_eq_sort, Finset.mem_sort]
    exact (hdrop hdropped).2

/-- A listed cursor is cleared. -/
theorem Dropping.perform {storeId : Uuid} {ids : List Uuid} (hd : Dropping (storeId :: ids) w t)
    (hwipes : rest.any wipes = true) :
    Dropping ids (DownloadCursor.perform w (.clearSyncCursor storeId)).1
      (noteEffect w t rest (.clearSyncCursor storeId)) := by
  simp only [noteEffect, if_pos hwipes]
  refine ⟨hd.token, hd.onboarded, hd.session, ?_, ?_⟩
  · intro other raw hraw
    obtain ⟨hfind, hkept⟩ := Table.find?_filter_eq_some.mp hraw
    have hne : other ≠ storeId := by simpa using hkept
    exact (List.mem_cons.mp (hd.points.stored other raw hfind)).resolve_left hne
  · intro f hflight hdropped
    obtain ⟨g, hg, rfl⟩ := List.mem_map.mp hflight
    obtain ⟨hstore, hasker, hpath, -, hdrop⟩ := dropOne_eq storeId g
    obtain ⟨hnot, hne⟩ := hdrop hdropped
    rw [hstore, hasker, hpath]
    exact (hd.points.reached g hg hnot).imp_right fun h => (List.mem_cons.mp h).resolve_left hne

/-- With every listed cursor cleared, the tables are wiped. -/
theorem Dropping.wipe (hd : Dropping [] w t) :
    Blank (DownloadCursor.perform w .wipe).1 (noteEffect w t rest .wipe) := by
  refine ⟨hd.token, hd.onboarded, holds_wipe _ t, ?_⟩
  have hpoints := hd.points.mark (g := Flight.wipe) fun f => ⟨rfl, rfl, rfl, id⟩
  exact hpoints.mono fun _ _ h => absurd h List.not_mem_nil

/-- One step of the operation being carried out. -/
theorem Phase.perform (hk : Kept w t) (hp : Phase w t (effect :: rest)) :
    Kept (DownloadCursor.perform w effect).1 (noteEffect w t rest effect) ∧
      Phase (DownloadCursor.perform w effect).1 (noteEffect w t rest effect)
        ((DownloadCursor.perform w effect).2 ++ rest) := by
  generalize hleft : effect :: rest = left at hp
  cases hp with
  | signedOut => cases hleft
  | owned howned =>
    subst hleft
    obtain ⟨hmore, hafter⟩ := howned.perform
    refine ⟨hk.perform ?_, ?_⟩
    · rintro other rfl
      obtain rfl : other = _ := howned.keeps _ List.mem_cons_self
      exact Or.inl howned.holder
    · rw [hmore]
      exact .owned hafter
  | @forgetting forget tail hforgetting htail =>
    cases forget with
    | nil =>
      obtain ⟨rfl, rfl⟩ := List.cons.inj hleft
      exact ⟨hk.perform fun _ h => (by cases h), .dropping hforgetting.list htail⟩
    | cons first forget =>
      obtain ⟨rfl, rfl⟩ := List.cons.inj hleft
      have hforgets := hforgetting.forgets effect List.mem_cons_self
      obtain ⟨hmore, hafter⟩ := @Forgetting.perform w t effect
        (forget ++ .listSyncCursors :: .wipe :: tail) forget hforgetting
      refine ⟨hk.perform ?_, ?_⟩
      · rintro other rfl
        cases hforgets
      · rw [hmore]
        exact .forgetting hafter htail
  | @dropping ids tail hdropping htail =>
    cases ids with
    | nil =>
      obtain ⟨rfl, rfl⟩ := List.cons.inj hleft
      exact ⟨hk.perform fun _ h => (by cases h), .blank hdropping.wipe htail⟩
    | cons storeId ids =>
      obtain ⟨rfl, rfl⟩ := List.cons.inj hleft
      have hwipes : (ids.map Effect.clearSyncCursor ++ .wipe :: tail).any wipes = true := by
        simp [wipes]
      exact ⟨hk.perform fun _ h => (by cases h), .dropping (hdropping.perform hwipes) htail⟩
  | blank hblank htail =>
    subst hleft
    obtain ⟨hmore, hafter⟩ := hblank.perform htail
    refine ⟨hk.perform fun _ _ => Or.inr hblank, ?_⟩
    rw [hmore]
    exact hafter

end

section

variable {server : Server} {w w' : World} {t t' : Traces} {a : Action} {person : Person}
  {left : List Effect}

/-- What holds after every step in time: what holds at every moment, at most
one operation being carried out, and the phone where that operation is. -/
structure Orderly (phone : Phone) : Prop where
  /-- What holds at every moment. -/
  kept : Kept phone.world phone.traces
  /-- One operation at a time. -/
  single : (underway phone.world).length ≤ 1
  /-- How far it is. -/
  phase : Phase phone.world phone.traces (underway phone.world).flatten

/-- The operation being carried out, taken out of those in flight. -/
theorem underway_split {operations : List Operation} {i : ℕ} {effects : List Effect}
    (hget : operations[i]? = some (.running effects))
    (hsingle : (operations.filterMap Operation.effects?).length ≤ 1) :
    operations.filterMap Operation.effects? = [effects] ∧
      (∀ after, (operations.set i (.running after)).filterMap Operation.effects? = [after]) ∧
      (operations.eraseIdx i).filterMap Operation.effects? = [] := by
  obtain ⟨hi, hop⟩ := List.getElem?_eq_some_iff.mp hget
  have hsplit : operations = operations.take i ++ .running effects :: operations.drop (i + 1) := by
    rw [← hop, List.getElem_cons_drop, List.take_append_drop]
  have hall : operations.filterMap Operation.effects? =
      (operations.take i).filterMap Operation.effects? ++ effects ::
        (operations.drop (i + 1)).filterMap Operation.effects? := by
    conv_lhs => rw [hsplit]
    rw [List.filterMap_append, List.filterMap_cons]
    rfl
  rw [hall, List.length_append, List.length_cons] at hsingle
  have hbefore : (operations.take i).filterMap Operation.effects? = [] :=
    List.eq_nil_of_length_eq_zero (by omega)
  have hafter : (operations.drop (i + 1)).filterMap Operation.effects? = [] :=
    List.eq_nil_of_length_eq_zero (by omega)
  refine ⟨by rw [hall, hbefore, hafter, List.nil_append], fun after => ?_, ?_⟩
  · rw [List.set_eq_take_append_cons_drop, if_pos hi, List.filterMap_append, List.filterMap_cons,
      hbefore, hafter]
    rfl
  · rw [List.eraseIdx_eq_take_drop_succ, List.filterMap_append, hbefore, hafter]
    rfl

/-- An answered request for the account becomes the operation being carried
out. -/
theorem underway_answered {operations : List Operation} {i : ℕ} {current : AuthSession}
    (hget : operations[i]? = some (.awaitingAccount current))
    (hnone : operations.filterMap Operation.effects? = []) (effects : List Effect) :
    (operations.set i (.running effects)).filterMap Operation.effects? = [effects] := by
  obtain ⟨hi, hop⟩ := List.getElem?_eq_some_iff.mp hget
  have hsplit : operations = operations.take i ++ operations.drop i :=
    (List.take_append_drop i operations).symm
  rw [hsplit, List.filterMap_append, List.append_eq_nil_iff] at hnone
  have hafter : (operations.drop (i + 1)).filterMap Operation.effects? = [] := by
    have hdrop := hnone.2
    rw [← List.getElem_cons_drop hi, hop, List.filterMap_cons] at hdrop
    exact hdrop
  rw [List.set_eq_take_append_cons_drop, if_pos hi, List.filterMap_append, List.filterMap_cons,
    hnone.1, hafter]
  rfl

/-- An operation that begins is the one being carried out. -/
theorem underway_begin (hnone : underway w = []) (effects : List Effect) :
    underway (w.begin (.running effects)) = [effects] := by
  rw [underway, World.begin, List.filterMap_append]
  change underway w ++ _ = _
  rw [hnone]
  rfl

/-- Between operations the phone is nobody's, or one person's. -/
theorem Phase.idle (hp : Phase w t []) :
    (Blank w t ∧ w.session = none) ∨ ∃ person, Owned person [] w t := by
  generalize hleft : ([] : List Effect) = left at hp
  cases hp with
  | signedOut hblank hsession => exact Or.inl ⟨hblank, hsession⟩
  | owned howned =>
    subst hleft
    exact Or.inr ⟨_, howned⟩
  | forgetting =>
    simp at hleft
  | dropping =>
    simp at hleft
  | blank _ htail =>
    subst hleft
    rcases htail with h | ⟨session, h⟩
    · cases h
    · cases h

/-- Between operations every setting is the owner's. -/
theorem Owned.settled (ho : Owned person [] w t) (f : Field) : Right person w f :=
  (ho.right f).resolve_left fun ⟨_, he, _⟩ => absurd he List.not_mem_nil

/-- An operation that leaves the phone to its owner begins. -/
theorem Owned.begin (ho : Owned person [] w t) (hkeeps : ∀ e ∈ left, Keeps person e) :
    Owned person left w t :=
  ⟨ho.holder, ho.token, fun f => Or.inr (ho.settled f), hkeeps⟩

/-- Clearing the phone begins with forgetting. -/
theorem forgetting_begin {tail : List Effect} (hp : Phase w t []) (htail : Follows tail) :
    Phase w t (clearDevice ++ tail) := by
  refine @Phase.forgetting w t [.clearTokens, .removeActiveStore, .removeOnboarded,
    .removeAccess, .removeLegacyCursor] tail ⟨by decide, Or.inl (by simp), Or.inl (by simp), ?_⟩ htail
  intro session hsession
  rcases hp.idle with ⟨-, hnone⟩ | ⟨person, howned⟩
  · rw [hnone] at hsession
    cases hsession
  · rw [howned.settled .session session hsession]
    exact howned.holder

/-- A session is accepted on a phone of nobody, of the same person, or after
clearing it. -/
theorem accepting_begin (hp : Phase w t []) (who : Person) (stores : List Uuid)
    (preferred : Option Uuid) :
    Phase w t (acceptCloudSession
      (isSamePersonAsBefore w.preferences w.db (w.describe who stores preferred))
      (w.describe who stores preferred)) := by
  set session := w.describe who stores preferred with hsession
  have hlist : ∀ same, acceptCloudSession same session =
      (if same then [] else clearDevice) ++ welcome session := by
    intro same
    simp only [acceptCloudSession, welcome, List.append_assoc, List.cons_append,
      List.nil_append]
  rw [hlist]
  rcases hp.idle with ⟨hblank, -⟩ | ⟨person, howned⟩
  · have hsame : isSamePersonAsBefore w.preferences w.db session = true := by
      rw [isSamePersonAsBefore, hblank.onboarded]
      rfl
    rw [hsame]
    exact .blank hblank (Or.inr ⟨session, rfl⟩)
  · cases hsame : isSamePersonAsBefore w.preferences w.db session with
    | false => exact forgetting_begin hp (Or.inr ⟨session, rfl⟩)
    | true =>
      have honboarded : w.preferences.onboarded = true := howned.settled .onboarded
      have howner : w.db.owner = some person.ownerId := howned.settled .owner
      obtain ⟨access, haccess, hstaff⟩ := howned.settled .access
      simp only [isSamePersonAsBefore, honboarded, howner, haccess, AccessGrant.isSamePersonAs,
        Bool.not_true, Bool.false_eq_true, if_false, Option.getD_some, Bool.and_eq_true,
        beq_iff_eq] at hsame
      obtain ⟨⟨-, howner⟩, -, hsameStaff⟩ := hsame
      have hperson : session.person = person := by
        rw [AuthSession.person, ← howner, ← hsameStaff, hstaff]
      have hkeeps := keeps_welcome session
      rw [hperson] at hkeeps
      exact .owned (howned.begin hkeeps)

/-- What the server says of an account is about the same person. -/
theorem describe_person (w : World) (who : Person) (stores : List Uuid)
    (preferred : Option Uuid) : (w.describe who stores preferred).person = who := by
  obtain ⟨ownerId, staffId⟩ := who
  cases staffId <;> rfl

/-- Taking over the account's description leaves the phone to its owner. -/
theorem keeps_refreshAccount {current fresh : AuthSession} (hcurrent : current.person = person)
    (hfresh : fresh.person = person) : ∀ e ∈ refreshAccount current fresh, Keeps person e := by
  obtain ⟨ownerId, staffId⟩ := person
  obtain ⟨howner, -⟩ := Person.mk.inj hcurrent
  obtain ⟨hfreshOwner, hstaff⟩ := Person.mk.inj hfresh
  intro e he
  simp only [refreshAccount, List.mem_append, List.mem_map, List.mem_cons, List.not_mem_nil,
    or_false] at he
  rcases he with (he | ⟨storeId, -, rfl⟩) | rfl | rfl | rfl | rfl
  · split_ifs at he
    · rw [List.nil_append, List.mem_singleton] at he
      subst he
      trivial
    · simp only [List.mem_append, List.mem_cons, List.not_mem_nil, or_false] at he
      rcases he with (rfl | rfl) | rfl <;> trivial
    · cases he
  · trivial
  · exact hfreshOwner
  · exact hstaff
  · trivial
  · change (⟨current.owner, fresh.access.staffId⟩ : Person) = ⟨ownerId, staffId⟩
    rw [howner, hstaff]

end

section

variable {server : Server} {w w' : World} {t t' : Traces} {a : Action} {person : Person}
  {left : List Effect}

/-- Which operations are in flight is told apart from how far they are. -/
theorem Phase.withOperations (hp : Phase w t left) (operations : List Operation) :
    Phase { w with operations := operations } t left := by
  cases hp with
  | signedOut hblank hsession =>
    exact .signedOut ⟨hblank.token, hblank.onboarded, hblank.empty, hblank.unpointed⟩ hsession
  | owned howned =>
    refine .owned ⟨howned.holder, howned.token, fun f => (howned.right f).imp_right ?_, howned.keeps⟩
    intro h
    cases f <;> exact h
  | forgetting hforgetting htail =>
    exact .forgetting ⟨hforgetting.forgets, hforgetting.token, hforgetting.onboarded,
      hforgetting.session⟩ htail
  | dropping hdropping htail =>
    exact .dropping ⟨hdropping.token, hdropping.onboarded, hdropping.session, hdropping.points⟩ htail
  | blank hblank htail =>
    exact .blank ⟨hblank.token, hblank.onboarded, hblank.empty, hblank.unpointed⟩ htail

theorem Kept.withOperations (hk : Kept w t) (operations : List Operation) :
    Kept { w with operations := operations } t :=
  ⟨hk.legacy, hk.abreast, hk.token, hk.held, hk.points⟩

/-- An operation begins. -/
theorem orderly_begin (hk : Kept w t) (hnone : underway w = []) {effects : List Effect}
    (hp : Phase w t effects) : Orderly ⟨w.begin (.running effects), t⟩ := by
  have hunderway := underway_begin hnone effects
  refine ⟨hk.withOperations _, by rw [hunderway]; exact le_rfl, ?_⟩
  change Phase (w.begin (.running effects)) t (underway (w.begin (.running effects))).flatten
  rw [hunderway, List.flatten_cons, List.flatten_nil, List.append_nil]
  exact hp.withOperations _

/-- Between operations the session in memory can be let go, or read back
from the settings. -/
theorem Phase.withSession (hp : Phase w t []) {session : Option AuthSession} {pulls : List Pull}
    {operations : List Operation} {flights : List Flight} (hsub : ∀ f ∈ flights, f ∈ t.flights)
    (hsession : session = none ∨ session = restore w.preferences w.db) :
    Phase { w with session := session, pulls := pulls, operations := operations }
      { t with flights := flights } [] := by
  rcases hp.idle with ⟨hblank, -⟩ | ⟨person, howned⟩
  · have hnone : session = none := by
      rcases hsession with h | h
      · exact h
      · rw [h, restore, hblank.onboarded]
        rfl
    refine .signedOut ⟨hblank.token, hblank.onboarded, ?_, ?_⟩ hnone
    · exact hblank.empty.of_frame rfl rfl rfl rfl rfl rfl fun f hf => hblank.empty.pages f (hsub f hf)
    · exact ⟨hblank.unpointed.stored, fun f hf => hblank.unpointed.reached f (hsub f hf)⟩
  · refine .owned ⟨howned.holder, howned.token, fun f => Or.inr ?_, howned.keeps⟩
    have hright := howned.settled f
    cases f with
    | session =>
      intro own hown
      change session = some own at hown
      rcases hsession with h | h
      · rw [h] at hown
        cases hown
      · have honboarded : w.preferences.onboarded = true := howned.settled .onboarded
        have howner : w.db.owner = some person.ownerId := howned.settled .owner
        have hmode : w.preferences.storageMode = .cloud := howned.settled .storageMode
        obtain ⟨access, haccess, hstaff⟩ := howned.settled .access
        rw [h, restore, honboarded, howner] at hown
        simp only [Bool.not_true, Bool.false_eq_true, if_false, hmode, haccess,
          Option.getD_some] at hown
        split at hown
        · rename_i owner storeId howner' hstore
          split_ifs at hown with hknown hlocal
          · cases hlocal
          · obtain rfl := Option.some.inj hown
            obtain rfl := Option.some.inj howner'
            change (⟨person.ownerId, access.staffId⟩ : Person) = person
            rw [hstaff]
        · cases hown
    | _ => exact hright

/-- The same for what holds at every moment. -/
theorem Kept.withSession (hk : Kept w t) (session : Option AuthSession)
    (operations : List Operation) :
    Kept { w with session := session, operations := operations } t ∧
      Kept { w with session := session, pulls := [], operations := operations }
        { t with flights := [] } := by
  refine ⟨⟨hk.legacy, hk.abreast, hk.token, hk.held, hk.points⟩, hk.legacy, rfl, hk.token, ?_, ?_⟩
  · intro person hholder
    exact (hk.held person hholder).of_frame rfl rfl rfl rfl rfl rfl
      fun f hf => absurd hf List.not_mem_nil
  · intro person hholder
    exact ⟨(hk.points person hholder).stored, fun f hf => absurd hf List.not_mem_nil⟩

/-- Effects leave the operations in flight alone. -/
theorem perform_operations (w : World) (effect : Effect) :
    (perform w effect).1.operations = w.operations := by
  cases effect <;> rfl

/-- A step of syncing or of daily work in time. -/
theorem Orderly.synced {phone phone' : Phone} (ho : Orderly phone) (htime : OnTime phone a)
    (hsyncs : syncs a = true) (hstep : step server phone a = some phone') : Orderly phone' := by
  obtain ⟨world, hworld, rfl⟩ := Option.map_eq_some_iff.mp hstep
  have hs := synced_of_step ho.kept.abreast ho.kept.legacy hsyncs hworld
  have hunderway : underway world = underway phone.world := by
    rw [underway, hs.same.operations, underway]
  refine ⟨ho.kept.synced ho.phase htime hs, ?_, ?_⟩
  · rw [hunderway]
    exact ho.single
  · rw [hunderway]
    exact ho.phase.synced rfl htime hs

/-- One step of the operation being carried out, or its end. -/
theorem Orderly.continue {phone phone' : Phone} (ho : Orderly phone) {i : ℕ}
    (hstep : step server phone (.continue i) = some phone') : Orderly phone' := by
  obtain ⟨w, t⟩ := phone
  obtain ⟨hk, hsingle, hp⟩ := ho
  obtain ⟨world, hworld, rfl⟩ := Option.map_eq_some_iff.mp hstep
  dsimp only at hk hsingle hp hworld ⊢
  simp only [DownloadCursor.step] at hworld
  split at hworld
  · rename_i effect rest hget
    cases hworld
    obtain ⟨hunderway, hset, -⟩ := underway_split hget hsingle
    have hnote : note w t (.continue i) = noteEffect w t rest effect := by
      simp only [note, hget]
    change underway w = _ at hunderway
    rw [hunderway, List.flatten_cons, List.flatten_nil, List.append_nil] at hp
    obtain ⟨hkept, hphase⟩ := hp.perform hk
    rw [hnote]
    have hafter : underway { (perform w effect).1 with
        operations := (perform w effect).1.operations.set i
          (.running ((perform w effect).2 ++ rest)) } = [(perform w effect).2 ++ rest] := by
      rw [underway, perform_operations]
      exact hset _
    refine ⟨hkept.withOperations _, by rw [hafter]; exact le_rfl, ?_⟩
    dsimp only
    rw [hafter, List.flatten_cons, List.flatten_nil, List.append_nil]
    exact hphase.withOperations _
  · rename_i hget
    cases hworld
    obtain ⟨hunderway, -, herase⟩ := underway_split hget hsingle
    have hnote : note w t (.continue i) = t := by
      simp only [note, hget]
    change underway w = _ at hunderway
    rw [hunderway] at hp
    have hafter : underway { w with operations := w.operations.eraseIdx i } = [] := herase
    rw [hnote]
    refine ⟨hk.withOperations _, by rw [hafter]; exact Nat.zero_le _, ?_⟩
    dsimp only
    rw [hafter]
    exact hp.withOperations _
  · cases hworld

/-- One step in time. -/
theorem Orderly.step {phone phone' : Phone} (ho : Orderly phone) (htime : OnTime phone a)
    (hstep : step server phone a = some phone') : Orderly phone' := by
  cases hsyncs : syncs a with
  | true => exact ho.synced htime hsyncs hstep
  | false =>
    obtain ⟨w, t⟩ := phone
    have hk : Kept w t := ho.kept
    have hp : Phase w t (underway w).flatten := ho.phase
    cases a with
    | «continue» i => exact ho.continue hstep
    | signOut =>
      cases hstep
      have hnone : underway w = [] := htime
      rw [hnone] at hp
      exact orderly_begin hk hnone (forgetting_begin hp (Or.inl rfl))
    | signIn who stores =>
      cases hstep
      have hnone : underway w = [] := htime
      rw [hnone] at hp
      exact orderly_begin hk hnone (accepting_begin hp who stores _)
    | refreshAccount =>
      obtain ⟨world, hworld, rfl⟩ := Option.map_eq_some_iff.mp hstep
      obtain ⟨current, -, rfl⟩ := Option.map_eq_some_iff.mp hworld
      have hunderway : underway (w.begin (.awaitingAccount current)) = underway w := by
        rw [underway, World.begin, List.filterMap_append]
        exact List.append_nil _
      refine ⟨hk.withOperations _, by rw [hunderway]; exact ho.single, ?_⟩
      rw [hunderway]
      exact hp.withOperations _
    | accountAnswered i stores =>
      obtain ⟨hnone, hcurrent⟩ := htime
      change underway w = [] at hnone
      obtain ⟨world, hworld, rfl⟩ := Option.map_eq_some_iff.mp hstep
      simp only [DownloadCursor.step] at hworld
      split at hworld
      · rename_i current hget
        cases hworld
        have hsession : w.session.map AuthSession.person = some current.person :=
          hcurrent current (by rw [hget]; rfl)
        rw [hnone] at hp
        set fresh := w.describe current.person stores (some current.store) with hfresh
        have hafter : underway { w with
            operations := w.operations.set i (.running (refreshAccount current fresh)) } =
            [refreshAccount current fresh] := underway_answered hget hnone _
        refine ⟨hk.withOperations _, by rw [hafter]; exact le_rfl, ?_⟩
        dsimp only
        rw [hafter, List.flatten_cons, List.flatten_nil, List.append_nil]
        obtain ⟨own, hown, hperson⟩ := Option.map_eq_some_iff.mp hsession
        rcases hp.idle with ⟨-, hnobody⟩ | ⟨person, howned⟩
        · rw [hnobody] at hown
          cases hown
        · have hcurrent : current.person = person :=
            hperson.symm.trans (howned.settled .session own hown)
          have hdescribed : fresh.person = person :=
            (describe_person w current.person stores _).trans hcurrent
          exact (Phase.owned (howned.begin (keeps_refreshAccount hcurrent hdescribed))).withOperations _
      · cases hworld
    | switchStore storeId =>
      have hnone : underway w = [] := htime
      obtain ⟨world, hworld, rfl⟩ := Option.map_eq_some_iff.mp hstep
      obtain ⟨current, hcurrent, rfl⟩ := Option.map_eq_some_iff.mp hworld
      rw [hnone] at hp
      apply orderly_begin hk hnone
      rcases hp.idle with ⟨-, hnobody⟩ | ⟨person, howned⟩
      · change w.session = some current at hcurrent
        rw [hnobody] at hcurrent
        cases hcurrent
      · refine .owned (howned.begin ?_)
        intro e he
        simp only [switchStore, List.mem_cons, List.not_mem_nil, or_false] at he
        rcases he with rfl | rfl | rfl
        · trivial
        · trivial
        · exact ⟨_, rfl, howned.settled .session current hcurrent⟩
    | crash =>
      cases hstep
      have hnone : underway w = [] := htime
      rw [hnone] at hp
      exact ⟨(hk.withSession none []).2, Nat.zero_le _,
        hp.withSession (fun f hf => absurd hf List.not_mem_nil) (Or.inl rfl)⟩
    | restore =>
      cases hstep
      have hnone : underway w = [] := htime
      rw [hnone] at hp
      have hafter : underway { w with session := restore w.preferences w.db } = [] := hnone
      refine ⟨(hk.withSession _ _).1, by rw [hafter]; exact Nat.zero_le _, ?_⟩
      dsimp only
      rw [hafter]
      exact hp.withSession (fun _ hf => hf) (Or.inr rfl)
    | _ => cases hsyncs

/-- A run of steps in time. -/
theorem Orderly.run {phone phone' : Phone} (ho : Orderly phone) {actions : List Action}
    (htime : OnTimeRun server phone actions) (hrun : run server phone actions = some phone') :
    Orderly phone' := by
  induction actions generalizing phone with
  | nil =>
    cases hrun
    exact ho
  | cons a rest ih =>
    rw [PhoneTraces.run, List.foldlM_cons, Option.bind_eq_bind, Option.bind_eq_some_iff] at hrun
    obtain ⟨next, hstep, hrest⟩ := hrun
    obtain ⟨hfirst, hafter⟩ := htime
    rw [hstep] at hafter
    exact ih (ho.step hfirst hstep) hafter hrest

/-- A phone just installed is nobody's. -/
theorem orderly_fresh (permissionsOf : Uuid → Permissions) : Orderly (Phone.fresh permissionsOf) := by
  have hempty : ∀ R, Holds R LocalDb.empty (Phone.fresh permissionsOf).traces := fun R =>
    ⟨fun _ _ _ h => (by cases h), fun _ _ h => (by cases h),
      fun _ _ h => absurd h (Finset.notMem_empty _), fun _ h => absurd h List.not_mem_nil⟩
  have hunpointed : ∀ K, Points K Table.empty (Phone.fresh permissionsOf).traces := fun K =>
    ⟨fun _ _ h => (by cases h), fun _ h => absurd h List.not_mem_nil⟩
  refine ⟨⟨rfl, rfl, fun _ h => (by cases h), fun _ _ => hempty _, fun _ _ => hunpointed _⟩,
    Nat.zero_le _, ?_⟩
  exact .signedOut ⟨rfl, rfl, hempty _, hunpointed _⟩ rfl

/-- What holds at every moment is what the next person counts on. -/
theorem Orderly.clean {phone : Phone} (ho : Orderly phone) : Clean phone := by
  intro person hholder
  have hheld := ho.kept.held person hholder
  refine ⟨?_, ?_, ?_, fun storeId raw => (ho.kept.points person hholder).stored storeId raw⟩
  · intro table id row hrow
    obtain ⟨other, hother, rfl⟩ := hheld.rows table id row hrow
    exact hother
  · intro id line hline
    obtain ⟨other, hother, rfl⟩ := hheld.lines id line hline
    exact hother
  · intro table id hid
    obtain ⟨other, hother, rfl⟩ := hheld.queued table id hid
    exact hother

end

/-- In every state of every run whose steps come in time, a phone holds
nothing of anyone but the person whose session was accepted last. -/
theorem handed_over_clean (server : Server) (permissionsOf : Uuid → Permissions)
    (actions : List Action) (phone : Phone)
    (htime : OnTimeRun server (Phone.fresh permissionsOf) actions)
    (hrun : run server (Phone.fresh permissionsOf) actions = some phone) : Clean phone :=
  ((orderly_fresh permissionsOf).run htime hrun).clean

/-- The owner of another store. -/
def nextOwner : Person := ⟨⟨9⟩, none⟩

/-- The next owner signs in, and the operation runs to its end. -/
def nextSignIn : List Action := .signIn nextOwner [⟨1⟩] :: List.replicate 9 (.continue 0)

/-- The owner signs out to the end while a page is on its way, which is let
go; the next owner signs in and asks for the first page. -/
def handedOver : List Action :=
  firstDownload ++ [.startPull, .request 0, .answer 0 settledReads, .signOut] ++
    List.replicate 10 (.continue 0) ++ nextSignIn ++ [.abandon 0, .startPull, .request 0]

/-- The page is applied just after the tables were wiped, and its cursor
stored, before the next owner signs in. -/
def lateFirstPage : List Action :=
  [.commit, .commit] ++ signInToEnd ++ [.startPull, .request 0, .answer 0 settledReads, .signOut] ++
    List.replicate 7 (.continue 0) ++ [.applyPage 0, .writeCursor 0] ++
    List.replicate 2 (.continue 0) ++ nextSignIn

/-- What a test looks at: whose the phone is, and whose the row and the
cursor on it are. -/
def glance (phone : Phone) :
    Option Person × Option (Option Person) × Option (List Person) :=
  (phone.traces.holder,
    ((phone.world.db.rows .products).find? ⟨2⟩).map fun _ => phone.traces.rows .products ⟨2⟩,
    (phone.world.preferences.cursors.find? ⟨0⟩).map fun _ => phone.traces.cursors ⟨0⟩)

/-- The next owner's phone is clean while a first page is on its way. -/
theorem handed_over_clean_handedOver :
    ∃ phone, run riceServer (Phone.fresh fun _ => Permissions.ALL) handedOver = some phone ∧
      glance phone = (some nextOwner, none, none) ∧ Clean phone := by
  have hglance : (run riceServer (Phone.fresh fun _ => Permissions.ALL) handedOver).map
      glance = some (some nextOwner, none, none) := by
    decide +kernel
  obtain ⟨phone, hrun, hphone⟩ := Option.map_eq_some_iff.mp hglance
  exact ⟨phone, hrun, hphone, handed_over_clean riceServer (fun _ => Permissions.ALL) handedOver
    phone (by decide +kernel) hrun⟩

/-- A page that comes between the wipe and the end of the sign-out is found
on the next owner's phone. -/
theorem late_page_stays :
    ∃ phone, run riceServer (Phone.fresh fun _ => Permissions.ALL) lateFirstPage = some phone ∧
      glance phone = (some nextOwner, some (some riceOwner), some [riceOwner]) ∧ ¬Clean phone := by
  have hglance : (run riceServer (Phone.fresh fun _ => Permissions.ALL) lateFirstPage).map
      glance = some (some nextOwner, some (some riceOwner), some [riceOwner]) := by
    decide +kernel
  obtain ⟨phone, hrun, hphone⟩ := Option.map_eq_some_iff.mp hglance
  refine ⟨phone, hrun, hphone, fun hclean => ?_⟩
  simp only [glance, Prod.mk.injEq] at hphone
  obtain ⟨hholder, hrow, -⟩ := hphone
  obtain ⟨row, hfind, htrace⟩ := Option.map_eq_some_iff.mp hrow
  have hown := (hclean nextOwner hholder).rows .products ⟨2⟩ row hfind
  rw [htrace] at hown
  exact absurd hown (by decide)

end Kitaza.PhoneHandover
