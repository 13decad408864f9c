import Mathlib.Data.List.Basic
import Mathlib.Data.UInt
import Kitaza.Primitives

/-!
# Whose webhook it is

The gateway signs the time, a dot and the body with the webhook's secret, and
sends the time and the tag in a header. The header is split into fields, and
the tag is checked against the header's time, a dot and the body received. As
the header's time may itself hold a dot, a signed event can be cut at another
dot than the gateway's: the tag still fits, with part of the body moved into
the time. Nothing else that was not signed is believed.
-/

namespace Kitaza.WebhookSignature

open Primitives

/-- Raw bytes. -/
abbrev Bytes := List UInt8

/-- A header or a part of one. -/
abbrev Text := List Char

/-- The bytes of a text. -/
def asBytes (text : Text) : Bytes := text.flatMap String.utf8EncodeChar

/-- HMAC-SHA256 under the webhook's secret, and hexadecimal. -/
structure Crypto where
  /-- The tag of a message. -/
  mac : Bytes → Bytes
  /-- `hex::encode`. -/
  hexEncode : Bytes → Text
  /-- `hex::decode`. -/
  hexDecode : Text → Option Bytes

/-- What is documented of them. -/
structure Crypto.Documented (crypto : Crypto) : Prop where
  /-- Hexadecimal reads back. -/
  decode_encode : ∀ bytes, crypto.hexDecode (crypto.hexEncode bytes) = some bytes
  /-- It is made of digits and the letters from a to f. -/
  hex_digits : ∀ bytes, ∀ c ∈ crypto.hexEncode bytes, c ∈ "0123456789abcdef".toList
  /-- Two for each byte. -/
  hex_length : ∀ bytes, (crypto.hexEncode bytes).length = 2 * bytes.length
  /-- A tag has 32 bytes. -/
  mac_length : ∀ message, (crypto.mac message).length = 32

/-- What a webhook is refused with. -/
inductive WebhookError where
  | unauthorized (message : String)
  | badRequest (message : String)
  deriving DecidableEq, Repr

/-- What every wrong signature is refused with. -/
def refused : WebhookError := .unauthorized "webhook signature does not match"

/-- A value, or the refusal. -/
def okOrRefused {α : Type} : Option α → Except WebhookError α
  | some value => .ok value
  | none => .error refused

/-- `str::trim`. -/
def trimText (part : Text) : Text :=
  ((part.dropWhile isWhiteSpace).reverse.dropWhile isWhiteSpace).reverse

/-- `str::split_once`. -/
def splitOnce (delimiter : Char) : Text → Option (Text × Text)
  | [] => none
  | c :: rest =>
    if c = delimiter then some ([], rest)
    else (splitOnce delimiter rest).map fun parts => (c :: parts.1, parts.2)

/-- The value of the first field of a name, unless it is empty. -/
def field (header name : Text) : Option Text :=
  ((((header.splitOn ',').filterMap fun part => splitOnce '=' (trimText part)).find?
    fun parts => parts.1 == name).map Prod.snd).filter fun value => !value.isEmpty

/-- The live signature, or else the test one. -/
def signatureField (header : Text) : Option Text :=
  (field header ['l', 'i']).or (field header ['t', 'e'])

/-- The bytes the tag is over. -/
def message (timestamp : Text) (rawBody : Bytes) : Bytes :=
  asBytes timestamp ++ 0x2E :: rawBody

/-- `verify_signature`. -/
def verifySignature (crypto : Crypto) (header : Text) (rawBody : Bytes) :
    Except WebhookError Unit := do
  let timestamp ← okOrRefused (field header ['t'])
  let expected ← okOrRefused (signatureField header)
  let expected ← okOrRefused (crypto.hexDecode expected)
  if crypto.mac (message timestamp rawBody) = expected then .ok () else .error refused

/-- A JSON value. -/
inductive Json where
  | null
  | bool (value : Bool)
  | number (literal : String)
  | string (value : String)
  | array (values : List Json)
  | object (fields : List (String × Json))

/-- A field of an object; null where there is none. -/
def Json.get : Json → String → Json
  | .object fields, key => (fields.lookup key).getD .null
  | _, _ => .null

/-- The text of a string. -/
def Json.asStr : Json → Option String
  | .string value => some value
  | _ => none

/-- A checkout reported paid. -/
structure PaidCheckout where
  /-- The checkout. -/
  reference : String
  /-- How it was paid. -/
  method : Option String
  deriving DecidableEq, Repr

/-- `verify_webhook`, given what reads JSON. -/
def verifyWebhook (crypto : Crypto) (parse : Bytes → Option Json) (header : Text)
    (rawBody : Bytes) : Except WebhookError (Option PaidCheckout) := do
  verifySignature crypto header rawBody
  match parse rawBody with
  | none => .error (.badRequest "webhook body is not JSON")
  | some event =>
    let attributes := (event.get "data").get "attributes"
    if (attributes.get "type").asStr ≠ some "checkout_session.payment.paid" then .ok none
    else
      let checkout := attributes.get "data"
      match (checkout.get "id").asStr with
      | none => .error (.badRequest "paid event names no checkout")
      | some reference =>
        .ok (some ⟨reference, ((checkout.get "attributes").get "payment_method_used").asStr⟩)

/-- A time and a body the gateway signed. -/
structure SignedEvent where
  /-- The time. -/
  timestamp : Text
  /-- Which is in decimal digits. -/
  digits : timestamp ≠ [] ∧ ∀ c ∈ timestamp, c ∈ "0123456789".toList
  /-- The body. -/
  body : Bytes

/-- The bytes the gateway signed. -/
def SignedEvent.message (event : SignedEvent) : Bytes :=
  WebhookSignature.message event.timestamp event.body

/-- The tag in the header, if it is one, is the tag of no other message than
those that were signed. -/
def Unforged (crypto : Crypto) (signed : List SignedEvent) (header : Text) : Prop :=
  ∀ value m, signatureField header = some value → crypto.hexDecode value = some (crypto.mac m) →
    ∃ event ∈ signed, m = event.message

/-- A body is believed only with the time it was signed with. -/
def BelievedAsSigned (crypto : Crypto) (signed : List SignedEvent) (header : Text)
    (rawBody : Bytes) : Prop :=
  verifySignature crypto header rawBody = .ok () →
    ∃ event ∈ signed, field header ['t'] = some event.timestamp ∧ rawBody = event.body

/-- The header's time holds a dot, and the time, a dot and the body are a
signed message cut at another dot than the gateway's, under its tag. -/
def CutElsewhere (crypto : Crypto) (signed : List SignedEvent) (header : Text)
    (rawBody : Bytes) : Prop :=
  ∃ timestamp value, field header ['t'] = some timestamp ∧ '.' ∈ timestamp ∧
    signatureField header = some value ∧
    ∃ event ∈ signed, message timestamp rawBody = event.message ∧
      crypto.hexDecode value = some (crypto.mac event.message)

/-- A byte of a character that is an ASCII byte is all of it. -/
theorem utf8EncodeChar_of_ascii {c : Char} {byte : UInt8} (h : byte ∈ String.utf8EncodeChar c)
    (hascii : byte.toNat < 128) : c.toNat = byte.toNat := by
  have hvalue : c.toNat = c.val.toNat := rfl
  unfold String.utf8EncodeChar at h
  dsimp only at h
  split at h
  next hone =>
    rw [List.mem_singleton] at h
    rw [h, UInt8.toNat_ofNat']
    omega
  next =>
    -- every byte of a longer character has its high bit set
    have hhigh : 128 ≤ byte.toNat := by
      split at h
      next => grind [UInt8.toNat_ofNat']
      next =>
        split at h
        next => grind [UInt8.toNat_ofNat']
        next => grind [UInt8.toNat_ofNat']
    omega

/-- A text without dots has no dot among its bytes. -/
theorem dot_notMem_asBytes {text : Text} (h : '.' ∉ text) : 0x2E ∉ asBytes text := by
  intro hdot
  obtain ⟨c, hc, hbyte⟩ := List.mem_flatMap.mp hdot
  have hvalue : c.toNat = '.'.toNat := utf8EncodeChar_of_ascii hbyte (by decide)
  have hchar : c = '.' := Char.toNat_inj.mp hvalue
  exact h (hchar ▸ hc)

/-- Texts with the same bytes are the same. -/
theorem asBytes_injective {a b : Text} (h : asBytes a = asBytes b) : a = b := by
  have hencode : a.utf8Encode = b.utf8Encode := congrArg List.toByteArray h
  have hdecode := congrArg ByteArray.utf8Decode? hencode
  rw [List.utf8Decode?_utf8Encode, List.utf8Decode?_utf8Encode, Option.some.injEq] at hdecode
  exact List.toArray_inj hdecode

/-- What comes before the first separator, and what comes after it. -/
theorem cut_unique {α : Type} {sep : α} {a b x y : List α} (ha : sep ∉ a) (hb : sep ∉ b)
    (h : a ++ sep :: x = b ++ sep :: y) : a = b ∧ x = y := by
  induction a generalizing b with
  | nil =>
    cases b with
    | nil => exact ⟨rfl, (List.cons.inj h).2⟩
    | cons c rest => exact absurd ((List.cons.inj h).1 ▸ List.mem_cons_self) hb
  | cons d init ih =>
    cases b with
    | nil => exact absurd ((List.cons.inj h).1 ▸ List.mem_cons_self) ha
    | cons c rest =>
      have hd := (List.cons.inj h).1
      obtain ⟨hrest, hxy⟩ := ih (fun hmem => ha (List.mem_cons_of_mem _ hmem))
        (fun hmem => hb (List.mem_cons_of_mem _ hmem)) (List.cons.inj h).2
      exact ⟨by rw [hd, hrest], hxy⟩

/-- A time that the gateway sends has no dot. -/
theorem SignedEvent.dot_notMem (event : SignedEvent) : '.' ∉ event.timestamp := by
  intro h
  have := event.digits.2 '.' h
  exact absurd this (by decide)

/-- A time without a dot and a body are signed as they are or not at all. -/
theorem eq_of_message {timestamp : Text} {rawBody : Bytes} {event : SignedEvent}
    (hdot : '.' ∉ timestamp) (h : message timestamp rawBody = event.message) :
    timestamp = event.timestamp ∧ rawBody = event.body := by
  obtain ⟨hbytes, hbody⟩ := cut_unique (dot_notMem_asBytes hdot)
    (dot_notMem_asBytes event.dot_notMem) h
  exact ⟨asBytes_injective hbytes, hbody⟩

section

variable {crypto : Crypto} {signed : List SignedEvent} {header : Text} {rawBody : Bytes}

/-- A header is accepted if its tag is that of its time, a dot and the body. -/
theorem verifySignature_eq_ok :
    verifySignature crypto header rawBody = .ok () ↔
      ∃ timestamp value, field header ['t'] = some timestamp ∧
        signatureField header = some value ∧
        crypto.hexDecode value = some (crypto.mac (message timestamp rawBody)) := by
  unfold verifySignature
  cases htime : field header ['t'] with
  | none => simp [okOrRefused, bind, Except.bind]
  | some timestamp =>
    cases hvalue : signatureField header with
    | none => simp [okOrRefused, bind, Except.bind]
    | some value =>
      cases htag : crypto.hexDecode value with
      | none => simp [okOrRefused, bind, Except.bind, htag]
      | some tag =>
        simp only [okOrRefused, bind, Except.bind, htag, Option.some.injEq, exists_eq_left',
          ↓existsAndEq, true_and]
        split
        next h => simp [h]
        next h => simp [Ne.symm h]

/-- What the webhook acts on was accepted. -/
theorem verifySignature_of_verifyWebhook {parse : Bytes → Option Json}
    {answer : Option PaidCheckout} (h : verifyWebhook crypto parse header rawBody = .ok answer) :
    verifySignature crypto header rawBody = .ok () := by
  unfold verifyWebhook at h
  cases hverify : verifySignature crypto header rawBody with
  | error e =>
    rw [hverify] at h
    cases h
  | ok u => rfl

/-- A body is believed only as it was signed, but for a signed message cut at
another dot. -/
theorem believedAsSigned_iff (hforged : Unforged crypto signed header) :
    BelievedAsSigned crypto signed header rawBody ↔
      ¬CutElsewhere crypto signed header rawBody := by
  constructor
  · intro hbelieved hcut
    obtain ⟨timestamp, value, htime, hdot, hvalue, event, _, hmessage, htag⟩ := hcut
    rw [← hmessage] at htag
    have haccepted := verifySignature_eq_ok.mpr ⟨timestamp, value, htime, hvalue, htag⟩
    obtain ⟨other, _, hother, _⟩ := hbelieved haccepted
    rw [htime, Option.some.injEq] at hother
    rw [hother] at hdot
    exact other.dot_notMem hdot
  · intro hcut haccepted
    obtain ⟨timestamp, value, htime, hvalue, htag⟩ := verifySignature_eq_ok.mp haccepted
    obtain ⟨event, hevent, hmessage⟩ := hforged value _ hvalue htag
    have hdot : '.' ∉ timestamp := by
      intro hdot
      rw [hmessage] at htag
      exact hcut ⟨timestamp, value, htime, hdot, hvalue, event, hevent, hmessage, htag⟩
    obtain ⟨hsame, hbody⟩ := eq_of_message hdot hmessage
    exact ⟨event, hevent, hsame ▸ htime, hbody⟩

end

/-- `t=<time>,te=<test hex>,li=<live hex>`. -/
def documentedHeader (timestamp te li : Text) : Text :=
  [','].intercalate ['t' :: '=' :: timestamp, 't' :: 'e' :: '=' :: te, 'l' :: 'i' :: '=' :: li]

/-- A text that can be a field's value as it stands: no comma, and no white
space. -/
def Bare (text : Text) : Prop := ∀ c ∈ text, c ≠ ',' ∧ isWhiteSpace c = false

theorem Bare.nil : Bare [] := by
  intro c hc
  cases hc

theorem Bare.of_subset {text alphabet : Text} (h : ∀ c ∈ text, c ∈ alphabet)
    (halphabet : (alphabet.all fun c => c != ',' && !isWhiteSpace c) = true) : Bare text := by
  intro c hc
  have hbare := List.all_eq_true.mp halphabet c (h c hc)
  simpa using hbare

theorem Bare.cons {c : Char} {text : Text} (h : Bare text) (hcomma : c ≠ ',')
    (hwhite : isWhiteSpace c = false) : Bare (c :: text) := by
  intro d hd
  cases List.mem_cons.mp hd with
  | inl heq =>
    rw [heq]
    exact ⟨hcomma, hwhite⟩
  | inr hmem => exact h d hmem

/-- Trimming leaves a bare text alone. -/
theorem Bare.trimText {text : Text} (h : Bare text) : trimText text = text := by
  have hkeep : ∀ part : Text, Bare part → part.dropWhile isWhiteSpace = part := by
    intro part hpart
    cases part with
    | nil => rfl
    | cons c rest =>
      rw [List.dropWhile_cons_of_neg]
      simp [(hpart c List.mem_cons_self).2]
  have hreverse : Bare text.reverse := fun c hc => h c (List.mem_reverse.mp hc)
  rw [WebhookSignature.trimText, hkeep text h, hkeep text.reverse hreverse, List.reverse_reverse]

section

variable {timestamp te li : Text} (htime : Bare timestamp) (hte : Bare te) (hli : Bare li)

include htime hte hli

/-- The fields of a documented header. -/
theorem fields_documentedHeader :
    ((documentedHeader timestamp te li).splitOn ',').filterMap
      (fun part => splitOnce '=' (trimText part)) =
      [(['t'], timestamp), (['t', 'e'], te), (['l', 'i'], li)] := by
  have hparts : ∀ part ∈ ['t' :: '=' :: timestamp, 't' :: 'e' :: '=' :: te,
      'l' :: 'i' :: '=' :: li], Bare part := by
    have htimePart := (htime.cons (c := '=') (by decide) (by decide)).cons (c := 't')
      (by decide) (by decide)
    have htePart := ((hte.cons (c := '=') (by decide) (by decide)).cons (c := 'e')
      (by decide) (by decide)).cons (c := 't') (by decide) (by decide)
    have hliPart := ((hli.cons (c := '=') (by decide) (by decide)).cons (c := 'i')
      (by decide) (by decide)).cons (c := 'l') (by decide) (by decide)
    simp only [List.mem_cons, List.not_mem_nil, or_false, forall_eq_or_imp, forall_eq]
    exact ⟨htimePart, htePart, hliPart⟩
  rw [documentedHeader, List.splitOn_intercalate ','
    (fun part hpart hcomma => (hparts part hpart ',' hcomma).1 rfl) (by simp)]
  have htrim : ∀ part ∈ ['t' :: '=' :: timestamp, 't' :: 'e' :: '=' :: te,
      'l' :: 'i' :: '=' :: li], splitOnce '=' (trimText part) = splitOnce '=' part := by
    intro part hpart
    rw [(hparts part hpart).trimText]
  rw [List.filterMap_congr htrim]
  simp [splitOnce]

/-- The time of a documented header. -/
theorem time_documentedHeader (hne : timestamp ≠ []) :
    field (documentedHeader timestamp te li) ['t'] = some timestamp := by
  rw [field, fields_documentedHeader htime hte hli]
  simp [hne]

/-- The tag of a documented header: the live one where there is one. -/
theorem tag_documentedHeader :
    signatureField (documentedHeader timestamp te li) =
      (Option.guard (fun value : Text => !value.isEmpty) li).or
        (Option.guard (fun value : Text => !value.isEmpty) te) := by
  rw [signatureField, field, field, fields_documentedHeader htime hte hli]
  simp [Option.guard, Option.filter]

end

/-- A signed event in the documented form is accepted, in either mode. -/
theorem verifySignature_documented {crypto : Crypto} (hcrypto : crypto.Documented)
    (event : SignedEvent) :
    let tag := crypto.hexEncode (crypto.mac event.message)
    verifySignature crypto (documentedHeader event.timestamp tag []) event.body = .ok () ∧
      verifySignature crypto (documentedHeader event.timestamp [] tag) event.body = .ok () := by
  intro tag
  have hdigits : Bare event.timestamp := Bare.of_subset event.digits.2 (by decide)
  have htag : Bare tag := Bare.of_subset (hcrypto.hex_digits _) (by decide)
  have hlength : tag.length = 64 := by rw [hcrypto.hex_length, hcrypto.mac_length]
  have hne : tag.isEmpty = false := by
    rw [List.isEmpty_eq_false_iff]
    intro h
    rw [h] at hlength
    cases hlength
  have hdecode := hcrypto.decode_encode (crypto.mac event.message)
  constructor
  · apply verifySignature_eq_ok.mpr
    refine ⟨event.timestamp, tag, time_documentedHeader hdigits htag Bare.nil event.digits.1, ?_,
      hdecode⟩
    rw [tag_documentedHeader hdigits htag Bare.nil]
    simp [Option.guard, hne]
  · apply verifySignature_eq_ok.mpr
    refine ⟨event.timestamp, tag, time_documentedHeader hdigits Bare.nil htag event.digits.1, ?_,
      hdecode⟩
    rw [tag_documentedHeader hdigits Bare.nil htag]
    simp [Option.guard, hne]

/-- A webhook is believed only for a body and a time that were signed
together, unless it is a signed message cut at another dot; and every signed
event in the documented form is accepted. -/
theorem believed_iff_not_cutElsewhere (crypto : Crypto) (hcrypto : crypto.Documented)
    (signed : List SignedEvent) (header : Text) (rawBody : Bytes)
    (hforged : Unforged crypto signed header) :
    (BelievedAsSigned crypto signed header rawBody ↔
      ¬CutElsewhere crypto signed header rawBody) ∧
    (∀ (parse : Bytes → Option Json) (answer : Option PaidCheckout),
      verifyWebhook crypto parse header rawBody = .ok answer →
        verifySignature crypto header rawBody = .ok ()) ∧
    ∀ event ∈ signed,
      let tag := crypto.hexEncode (crypto.mac event.message)
      verifySignature crypto (documentedHeader event.timestamp tag []) event.body = .ok () ∧
        verifySignature crypto (documentedHeader event.timestamp [] tag) event.body = .ok () :=
  ⟨believedAsSigned_iff hforged, fun _ _ h => verifySignature_of_verifyWebhook h,
    fun event _ => verifySignature_documented hcrypto event⟩

/-- Plain hexadecimal. -/
def hexDigits : Text := "0123456789abcdef".toList

/-- The digits of bytes. -/
def encodeHex (bytes : Bytes) : Text :=
  bytes.flatMap fun byte => [hexDigits.getD (byte.toNat / 16) '0',
    hexDigits.getD (byte.toNat % 16) '0']

/-- The bytes of digits, in either case. -/
def decodeHex : Text → Option Bytes
  | [] => some []
  | [_] => none
  | high :: low :: rest => do
    let h ← hexDigits.idxOf? high.toLower
    let l ← hexDigits.idxOf? low.toLower
    let bytes ← decodeHex rest
    return UInt8.ofNat (16 * h + l) :: bytes

theorem decodeHex_encodeHex (bytes : Bytes) : decodeHex (encodeHex bytes) = some bytes := by
  have hdigit : ∀ n < 16, hexDigits.idxOf? (hexDigits.getD n '0').toLower = some n := by decide
  induction bytes with
  | nil => rfl
  | cons byte rest ih =>
    have hlt := byte.toNat_lt
    have hbyte : UInt8.ofNat (16 * (byte.toNat / 16) + byte.toNat % 16) = byte := by
      rw [Nat.div_add_mod, UInt8.ofNat_toNat]
    rw [encodeHex, List.flatMap_cons, List.cons_append, List.singleton_append, decodeHex,
      hdigit _ (by omega), hdigit _ (by omega)]
    change (decodeHex (encodeHex rest)).bind (fun bytes =>
      some (UInt8.ofNat (16 * (byte.toNat / 16) + byte.toNat % 16) :: bytes)) = _
    rw [ih, hbyte]
    rfl

theorem amountTime_digits : ∀ c ∈ "1700000000".toList, c ∈ "0123456789".toList := by
  have hall : ("1700000000".toList.all fun c => "0123456789".toList.contains c) = true := by
    decide
  intro c hc
  exact List.contains_iff_mem.mp (List.all_eq_true.mp hall c hc)

/-- An event with an amount in it. -/
def amountEvent : SignedEvent :=
  ⟨"1700000000".toList, ⟨by decide, amountTime_digits⟩,
    asBytes "\x7b\"amount\":1.5\x7d".toList⟩

/-- Its tag under the secret `whsk_test_secret`. -/
def amountTag : Bytes :=
  [55, 68, 219, 20, 57, 241, 152, 148, 59, 127, 103, 238, 54, 222, 124, 221, 88, 114, 5, 130, 81,
    229, 152, 237, 103, 55, 59, 247, 242, 201, 93, 126]

/-- Tags, as far as that event needs them. -/
def amountCrypto : Crypto :=
  ⟨fun m => if m = amountEvent.message then amountTag else List.replicate 32 0, encodeHex,
    decodeHex⟩

theorem amountCrypto_documented : amountCrypto.Documented where
  decode_encode := decodeHex_encodeHex
  hex_digits := by
    intro bytes c hc
    obtain ⟨byte, _, hdigit⟩ := List.mem_flatMap.mp hc
    have hlt := byte.toNat_lt
    have hall : ∀ n < 16, hexDigits.getD n '0' ∈ hexDigits := by decide
    simp only [List.mem_cons, List.not_mem_nil, or_false] at hdigit
    cases hdigit with
    | inl h => rw [h]; exact hall _ (by omega)
    | inr h => rw [h]; exact hall _ (by omega)
  hex_length := by
    intro bytes
    induction bytes with
    | nil => rfl
    | cons byte rest ih =>
      change (encodeHex (byte :: rest)).length = _
      change (encodeHex rest).length = _ at ih
      rw [encodeHex, List.flatMap_cons, List.length_append, ← encodeHex, ih, List.length_cons,
        List.length_cons]
      simp only [List.length_cons, List.length_nil]
      omega
  mac_length := by
    intro m
    change (if m = amountEvent.message then amountTag else List.replicate 32 0).length = 32
    split <;> rfl

/-- The event's own header, with the body up to the amount's dot moved into
the time. -/
def cutHeader : Text :=
  documentedHeader "1700000000.\x7b\"amount\":1".toList (encodeHex amountTag) []

theorem cutHeader_unforged : Unforged amountCrypto [amountEvent] cutHeader := by
  have htag : signatureField cutHeader = some (encodeHex amountTag) := by decide
  intro value m hvalue hdecode
  rw [htag, Option.some.injEq] at hvalue
  have hmac : amountCrypto.mac m = amountTag := by
    rw [← hvalue] at hdecode
    exact (Option.some.inj ((decodeHex_encodeHex amountTag).symm.trans hdecode)).symm
  refine ⟨amountEvent, List.mem_singleton_self _, ?_⟩
  by_contra hne
  have hzero : amountCrypto.mac m = List.replicate 32 0 := if_neg hne
  rw [hzero] at hmac
  exact absurd hmac (by decide)

/-- A body is believed that nobody signed. -/
theorem amount_cut_believed :
    Unforged amountCrypto [amountEvent] cutHeader ∧
      ¬BelievedAsSigned amountCrypto [amountEvent] cutHeader (asBytes "5\x7d".toList) := by
  refine ⟨cutHeader_unforged, fun hbelieved => ?_⟩
  have haccepted : verifySignature amountCrypto cutHeader (asBytes "5\x7d".toList) = .ok () := by
    decide
  obtain ⟨event, hevent, _, hbody⟩ := hbelieved haccepted
  rw [List.mem_singleton.mp hevent] at hbody
  exact absurd hbody (by decide)

/-- The condition on that header. -/
theorem believed_iff_not_cutElsewhere_amount :
    BelievedAsSigned amountCrypto [amountEvent] cutHeader (asBytes "5\x7d".toList) ↔
      ¬CutElsewhere amountCrypto [amountEvent] cutHeader (asBytes "5\x7d".toList) :=
  (believed_iff_not_cutElsewhere amountCrypto amountCrypto_documented [amountEvent] cutHeader
    (asBytes "5\x7d".toList) cutHeader_unforged).1

end Kitaza.WebhookSignature
