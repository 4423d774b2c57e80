import Iec61850.Asn1Contents
import Iec61850.Net

/-! Confirmed services with their errors, MMS data from octets, and what a server association sends. -/
namespace Iec61850.Mms
open Asn1 Element Decoder List UInt8

/-- The error of a service; the text that explains a reject is left out. -/
structure ServiceError where
  cls : UInt8
  code : UInt8
  rejected : Bool := false
deriving DecidableEq

inductive HandlerError where
  | access (e : DataAccessError)
  | service (e : ServiceError)
  /-- Octets that cannot be decoded, and whatever else. -/
  | other

def tagConfirmedRequest : Tag := contextConstructed 0
def tagConfirmedResponse : Tag := contextConstructed 1
def tagConfirmedError : Tag := contextConstructed 2
def tagRejectPdu : Tag := contextConstructed 4

def resourceError : ServiceError := ⟨3, 0, false⟩

structure Request where
  invokeId : UInt32
  service : ℕ
  content : List UInt8

def parseConfirmedRequest (content : List UInt8) : Option Request :=
  match (new content).expect tagInteger with
  | .error _ => none
  | .ok (id, d) =>
    match decodeUint id, d.readTlv with
    | .ok n, .ok ((tag, body), _) => some ⟨UInt32.ofNat n, tag.number, body⟩
    | _, _ => none

def errorClassChoice : HandlerError → ℕ × Int64
  | .access .objectAccessUnsupported => (7, 1)
  | .access .objectNonExistent => (7, 2)
  | .access .objectAccessDenied => (7, 3)
  | .access _ => (7, 2)
  | .service e => if e.cls ≠ 0 then (e.cls.toNat, e.code.toUInt64.toInt64) else (4, 0)
  | .other => (4, 0)

def confirmedErrorPdu (invokeId : UInt32) (choice : ℕ × Int64) : Element :=
  cons tagConfirmedError
    [uintElem (contextPrimitive 0) invokeId.toUInt64,
     cons (contextConstructed 2) [cons (contextConstructed 0) [intElem (contextPrimitive choice.1) choice.2]]]

def encodeErrorPdu (invokeId : UInt32) (err : HandlerError) : Element :=
  match err with
  | .service ⟨cls, code, true⟩ =>
    cons tagRejectPdu
      [uintElem (contextPrimitive 0) invokeId.toUInt64, intElem (contextPrimitive cls.toNat) code.toUInt64.toInt64]
  | _ => confirmedErrorPdu invokeId (errorClassChoice err)

def confirmedResponse (invokeId : UInt32) (resp : Element) : Element :=
  cons tagConfirmedResponse [uintElem tagInteger invokeId.toUInt64, resp]

def sendResponse (maxPdu : ℕ) (invokeId : UInt32) (resp : Element) : List UInt8 :=
  let out := (confirmedResponse invokeId resp).encode
  if 0 < maxPdu ∧ maxPdu < out.length then (encodeErrorPdu invokeId (.service resourceError)).encode else out

def answer (handle : Request → Except HandlerError Element) (maxPdu : ℕ) (pdu : List UInt8) : Option (List UInt8) :=
  match (new pdu).readTlv with
  | .error _ => none
  | .ok ((tag, content), _) =>
    if tag = tagConfirmedRequest then
      (parseConfirmedRequest content).map fun req =>
        match handle req with
        | .ok resp => sendResponse maxPdu req.invokeId resp
        | .error e => (encodeErrorPdu req.invokeId e).encode
    else none

def splitInvoke (content : List UInt8) : Option (UInt32 × List UInt8) :=
  match (new content).readTlv with
  | .error _ => none
  | .ok ((tag, id), d) =>
    if tag ≠ tagInteger ∧ tag ≠ contextPrimitive 0 then none
    else
      match decodeUint id with
      | .error _ => none
      | .ok n => some (UInt32.ofNat n, d.rest)

mutual
def drillErrorClass : (fuel depth : ℕ) → (body : List UInt8) → Option (UInt8 × UInt8)
  | 0, _, _ => none
  | fuel + 1, depth, body => if 8 < depth then none else drillElements fuel depth (new body)

def drillElements : (fuel depth : ℕ) → Decoder → Option (UInt8 × UInt8)
  | 0, _, _ => none
  | fuel + 1, depth, d =>
    if d.more then
      match d.readTlv with
      | .error _ => none
      | .ok ((tag, content), next) =>
        if tag.cls ≠ .contextSpecific then drillElements fuel depth next
        else if tag.constructed then
          match drillErrorClass fuel (depth + 1) content with
          | some found => some found
          | none => drillElements fuel depth next
        else
          let n := match decodeInt content with
            | .ok n => n
            | .error _ => 0
          some (UInt8.ofNat tag.number, UInt8.ofNat (n % 256).toNat)
    else none
end

def decodeServiceError (body : List UInt8) : ServiceError :=
  match drillErrorClass (2 * body.length + 2) 0 body with
  | some (cls, code) => { cls := cls, code := code }
  | none => { cls := 0, code := 0 }

def dispatch (pdu : List UInt8) : Option (UInt32 × Except ServiceError (List UInt8)) :=
  match (new pdu).readTlv with
  | .error _ => none
  | .ok ((tag, content), _) =>
    if tag = tagConfirmedResponse then (splitInvoke content).map fun (id, body) => (id, .ok body)
    else if tag = tagConfirmedError then
      (splitInvoke content).map fun (id, body) => (id, .error (decodeServiceError body))
    else if tag = tagRejectPdu then
      match (new content).optional (contextPrimitive 0) with
      | .error _ => none
      | .ok (id, d) =>
        let id := match id.map decodeUint with
          | some (.ok n) => UInt32.ofNat n
          | _ => 0
        let reason := match d.readTlv with
          | .ok ((tag, rr), _) =>
            let code := match decodeInt rr with
              | .ok n => UInt8.ofNat (n % 256).toNat
              | .error _ => 0
            (UInt8.ofNat tag.number, code)
          | .error _ => (0, 0)
        some (id, .error { cls := reason.1, code := reason.2, rejected := true })
    else none

def confirmedRequest (invokeId : UInt32) (service : Element) : Element :=
  cons tagConfirmedRequest [uintElem tagInteger invokeId.toUInt64, service]

def call (handle : Request → Except HandlerError Element) (maxPdu : ℕ) (invokeId : UInt32)
    (service : Element) : Option (Except ServiceError (List UInt8)) :=
  match (answer handle maxPdu (confirmedRequest invokeId service).encode).bind dispatch with
  | some (id, result) => if id = invokeId then some result else none
  | none => none

variable {handle : Request → Except HandlerError Element} {maxPdu n depth fuel cls : ℕ} {id : UInt32}
  {service resp : Element} {t : Tag} {es : List Element}

lemma prim_low (h : LowTag t) (v : List UInt8) : (prim t v).AllLow := h

lemma uintElem_low (h : LowTag t) (v : UInt64) : (uintElem t v).AllLow := h

lemma intElem_low (h : LowTag t) (v : Int64) : (intElem t v).AllLow := h

lemma cons_low (hn : n < 128) (h : AllLows es) : (cons (contextConstructed n) es).AllLow := ⟨hn, h⟩

lemma size_cons_le (hn : n < 128) (h : AllLows es) : (cons (contextConstructed n) es).size ≤ sizes es + 7 := by
  have hsz := size_le (cons_low hn h)
  rw [length_content_cons h] at hsz
  exact hsz

lemma confirmedRequest_low (h : service.AllLow) : (confirmedRequest id service).AllLow :=
  cons_low (by decide) ⟨uintElem_low (by decide) _, h, trivial⟩

lemma confirmedResponse_low (h : resp.AllLow) : (confirmedResponse id resp).AllLow :=
  cons_low (by decide) ⟨uintElem_low (by decide) _, h, trivial⟩

lemma fits_service (h : (confirmedRequest id service).Fits) : service.Fits :=
  (Fits.parts h : AllFit [_, service]).tail.head

lemma fits_response (h : (confirmedResponse id resp).Fits) : resp.Fits :=
  (Fits.parts h : AllFit [_, resp]).tail.head

lemma length_uintElem_content (t : Tag) (v : UInt64) : (uintElem t v).content.length ≤ 9 := by
  have h : v.toNat < 128 * 256 ^ 8 := by
    have := v.toNat_lt
    omega
  have hle := (lt_of_uintSize 9 (by decide) h).2
  simpa [uintElem] using hle

lemma length_invokeId (id : UInt32) : (uintElem tagInteger id.toUInt64).content.length ≤ 5 := by
  have hlt : id.toUInt64.toNat < 128 * 256 ^ 4 := by
    have := id.toNat_lt
    simp only [UInt32.toNat_toUInt64]
    omega
  have hle := (lt_of_uintSize 9 (by decide) hlt).2
  simpa [uintElem] using hle

lemma size_invokeId (id : UInt32) : (uintElem tagInteger id.toUInt64).size ≤ 7 := by
  have hlen := length_invokeId id
  have hsz : (uintElem tagInteger id.toUInt64).size = 1 + lengthSize (uintElem tagInteger id.toUInt64).content.length +
      (uintElem tagInteger id.toUInt64).content.length := rfl
  have hsh : lengthSize (uintElem tagInteger id.toUInt64).content.length = 1 := if_pos (by omega)
  omega

lemma size_confirmedResponse_le (h : resp.AllLow) : (confirmedResponse id resp).size ≤ resp.size + 13 := by
  have hps : AllLows [uintElem tagInteger id.toUInt64, resp] := ⟨uintElem_low (by decide) _, h, trivial⟩
  have hid := size_invokeId id
  have hlow : (confirmedResponse id resp).AllLow := confirmedResponse_low h
  have hle := size_le_of_short hlow (Nat.le_of_ble_eq_true rfl)
  have hlen : (confirmedResponse id resp).content.length = _ := length_content_cons hps
  simp only [sizes_cons, sizes_nil] at hlen
  omega

/-- The response of a service that pages: some of the list, and whether more follows. -/
theorem size_page_le (hn : n < 128) {page : List Element} (h : AllLows page) (more : Bool) :
    (confirmedResponse id (cons (contextConstructed n)
      [cons (contextConstructed 0) page, boolElem (contextPrimitive 1) more])).size ≤ sizes page + 29 := by
  have hps : AllLows [cons (contextConstructed 0) page, boolElem (contextPrimitive 1) more] :=
    ⟨cons_low (by decide) h, prim_low (by decide) _, trivial⟩
  have hmo : (boolElem (contextPrimitive 1) more).size = 3 := by cases more <;> rfl
  have hlist := size_le_of_short hps.1 (Nat.le_of_ble_eq_true rfl)
  have hsvc := size_cons_le hn hps
  have hpdu : (confirmedResponse id _).size ≤ _ := size_confirmedResponse_le (cons_low hn hps)
  rw [length_content_cons h] at hlist
  simp only [sizes_cons, sizes_nil] at hsvc
  omega

lemma length_intElem_content (t : Tag) (v : Int64) : (intElem t v).content.length ≤ 8 := by
  have hlo := v.le_toInt
  have hhi := v.toInt_lt
  have hle := (lt_of_intSize (v := v.toInt) (k := 7) 8 (by decide) (by omega) (by omega)).2.2
  simpa [intElem] using hle

lemma toUInt32_ofNat_toNat (id : UInt32) : UInt32.ofNat id.toUInt64.toNat = id := by
  apply UInt32.toNat_inj.mp
  simp

section
variable (h : (confirmedRequest id service).Fits)
include h

lemma parse_confirmedRequest : parseConfirmedRequest (confirmedRequest id service).content =
      some ⟨id, service.tag.number, service.content⟩ := by
  have hps := h.parts
  have hsvc := hps.tail.head
  have hcnt : new (confirmedRequest id service).content =
      ⟨0, (uintElem tagInteger id.toUInt64).encode ++ (service.encode ++ [])⟩ := rfl
  unfold parseConfirmedRequest
  rw [hcnt, expect_encode (t := tagInteger) hps.head rfl]
  dsimp only
  rw [decodeUint_uintElem, readTlv_encode hsvc.low hsvc.length_lt]
  dsimp only
  rw [toUInt32_ofNat_toNat]

lemma answer_confirmedRequest : answer handle maxPdu (confirmedRequest id service).encode =
      some (match handle ⟨id, service.tag.number, service.content⟩ with
        | .ok resp => sendResponse maxPdu id resp | .error e => (encodeErrorPdu id e).encode) := by
  unfold answer
  rw [new_encode, readTlv_encode h.low h.length_lt]
  dsimp only
  rw [if_pos (show (confirmedRequest id service).tag = tagConfirmedRequest from rfl), parse_confirmedRequest h]
  rfl

end

lemma splitInvoke_content (ht : t = tagInteger ∨ t = contextPrimitive 0) (rest : List UInt8) :
    splitInvoke ((uintElem t id.toUInt64).encode ++ rest) = some (id, rest) := by
  have hlow : LowTag t := by rcases ht with rfl | rfl <;> decide
  have hlen := length_uintElem_content t id.toUInt64
  unfold splitInvoke new
  rw [readTlv_encode (uintElem_low hlow _) (by omega)]
  dsimp only
  have htag : ¬ ((uintElem t id.toUInt64).tag ≠ tagInteger ∧
      (uintElem t id.toUInt64).tag ≠ contextPrimitive 0) := by
    rintro ⟨h1, h2⟩
    exact ht.elim h1 h2
  rw [if_neg htag, decodeUint_uintElem]
  dsimp only
  rw [toUInt32_ofNat_toNat]

lemma dispatch_confirmedResponse (h : (confirmedResponse id resp).Fits) :
    dispatch (confirmedResponse id resp).encode = some (id, .ok resp.encode) := by
  have hcnt : (confirmedResponse id resp).content =
      (uintElem tagInteger id.toUInt64).encode ++ (resp.encode ++ []) := rfl
  unfold dispatch
  rw [new_encode, readTlv_encode h.low h.length_lt]
  dsimp only
  rw [if_pos (show (confirmedResponse id resp).tag = tagConfirmedResponse from rfl), hcnt,
    splitInvoke_content (.inl rfl), append_nil]
  rfl

lemma intElem_narrow (h : n < 2 ^ 28) (v : Int64) : (intElem (contextPrimitive n) v).Narrow :=
  forall_mem_singleton.mpr h

lemma more_of_length {off : ℕ} {octets : List UInt8} (h : 2 ≤ octets.length) : more ⟨off, octets ++ []⟩ := by
  cases octets with
  | nil => simp at h
  | cons b octets => rfl

lemma drillErrorClass_cons {e : Element} {found : UInt8 × UInt8} (hdepth : depth ≤ 8)
    (he : (cons (contextConstructed n) [e]).Narrow) (hlen : e.encode.length < 2 ^ 32)
    (h : drillErrorClass fuel (depth + 1) e.encode = some found) :
    drillErrorClass (fuel + 2) depth (cons (contextConstructed n) [e]).encode = some found := by
  have hcnt : (cons (contextConstructed n) [e]).content = e.encode := append_nil _
  have hlong := (length_encode_narrow (e := cons (contextConstructed n) [e]) rfl).1
  rw [drillErrorClass, if_neg (by omega), new_encode, drillElements, if_pos (more_of_length (by omega)),
    readTlv_narrow rfl he (by rwa [hcnt])]
  dsimp only
  rw [if_neg (by simp [contextConstructed]), if_pos (by simp), hcnt, h]

lemma drillErrorClass_intElem (v : Int64) (hdepth : depth ≤ 8) (hn : n < 2 ^ 28) :
    drillErrorClass (fuel + 2) depth (intElem (contextPrimitive n) v).encode =
      some (UInt8.ofNat n, UInt8.ofNat (v.toInt % 256).toNat) := by
  have hlen := length_intElem_content (contextPrimitive n) v
  have hlong := (length_encode_narrow (e := intElem (contextPrimitive n) v) rfl).1
  rw [drillErrorClass, if_neg (by omega), new_encode, drillElements, if_pos (more_of_length (by omega)),
    readTlv_narrow rfl (intElem_narrow hn v) (by omega)]
  dsimp only
  rw [if_neg (by simp [contextPrimitive]), if_neg (by simp [contextPrimitive]), decodeInt_intElem]
  rfl

def errorElement (cls : ℕ) (code : Int64) : Element :=
  cons (contextConstructed 2) [cons (contextConstructed 0) [intElem (contextPrimitive cls) code]]

lemma errorElement_narrow (h : cls < 2 ^ 28) (code : Int64) :
    (cons (contextConstructed 0) [intElem (contextPrimitive cls) code]).Narrow ∧ (errorElement cls code).Narrow := by
  have hinner : (cons (contextConstructed 0) [intElem (contextPrimitive cls) code]).Narrow :=
    forall_mem_cons.mpr ⟨by decide, intElem_narrow h code⟩
  exact ⟨hinner, forall_mem_cons.mpr ⟨by decide, hinner⟩⟩

lemma length_errorElement (cls : ℕ) (code : Int64) : 2 ≤ (errorElement cls code).encode.length ∧
    (cons (contextConstructed 0) [intElem (contextPrimitive cls) code]).encode.length ≤ 30 ∧
    (errorElement cls code).encode.length ≤ 41 := by
  have hlen := length_intElem_content (contextPrimitive cls) code
  have hcode := length_encode_narrow (e := intElem (contextPrimitive cls) code) rfl
  have hinner := length_encode_narrow (e := cons (contextConstructed 0) [intElem (contextPrimitive cls) code]) rfl
  have houter := length_encode_narrow (e := errorElement cls code) rfl
  simp only [errorElement, content_cons, encodeAll, append_nil] at hinner houter ⊢
  omega

lemma decodeServiceError_encode (h : cls < 2 ^ 28) (code : Int64) :
    decodeServiceError (errorElement cls code).encode =
      ⟨UInt8.ofNat cls, UInt8.ofNat (code.toInt % 256).toNat, false⟩ := by
  obtain ⟨hinner, houter⟩ := errorElement_narrow h code
  obtain ⟨hlong, hsh, -⟩ := length_errorElement cls code
  have hcode := (length_encode_narrow (e := intElem (contextPrimitive cls) code) rfl).2
  have hlen := length_intElem_content (contextPrimitive cls) code
  have hfnd (fuel : ℕ) : drillErrorClass (fuel + 2 + 2 + 2) 0 (errorElement cls code).encode =
      some (ofNat cls, ofNat (code.toInt % 256).toNat) := by
    apply drillErrorClass_cons (by decide) houter (by omega)
    apply drillErrorClass_cons (by decide) hinner (by omega)
    exact drillErrorClass_intElem code (by decide) h
  -- There is fuel for the three levels.
  obtain ⟨fuel, hfuel⟩ : ∃ fuel, 2 * (errorElement cls code).encode.length + 2 = fuel + 2 + 2 + 2 :=
    ⟨2 * (errorElement cls code).encode.length - 4, by omega⟩
  unfold decodeServiceError
  rw [hfuel, hfnd]

lemma length_idElem (id : UInt32) (rest : List UInt8) :
    ((uintElem (contextPrimitive 0) id.toUInt64).encode ++ rest).length ≤ 20 + rest.length := by
  have hid := length_uintElem_content (contextPrimitive 0) id.toUInt64
  have hlen := (length_encode_narrow (e := uintElem (contextPrimitive 0) id.toUInt64) rfl).2
  rw [length_append]
  omega

lemma dispatch_confirmedErrorPdu {choice : ℕ × Int64} (h : choice.1 < 2 ^ 28) :
    dispatch (confirmedErrorPdu id choice).encode =
      some (id, .error ⟨UInt8.ofNat choice.1, UInt8.ofNat (choice.2.toInt % 256).toNat, false⟩) := by
  have hnarrow : (confirmedErrorPdu id choice).Narrow :=
    forall_mem_cons.mpr ⟨by decide, forall_mem_cons.mpr ⟨by decide, (errorElement_narrow h choice.2).2⟩⟩
  have hcnt : (confirmedErrorPdu id choice).content =
      (uintElem (contextPrimitive 0) id.toUInt64).encode ++ ((errorElement choice.1 choice.2).encode ++ []) := rfl
  have hlen := length_idElem id ((errorElement choice.1 choice.2).encode ++ [])
  rw [← hcnt, append_nil] at hlen
  have herror := length_errorElement choice.1 choice.2
  unfold dispatch
  rw [new_encode, readTlv_narrow rfl hnarrow (by omega)]
  dsimp only
  rw [if_neg (by decide), if_pos (by rfl), hcnt, splitInvoke_content (.inr rfl), append_nil, Option.map_some,
    decodeServiceError_encode h]

lemma code_int (code : UInt8) : UInt8.ofNat (code.toUInt64.toInt64.toInt % 256).toNat = code := by
  have hlt := code.toNat_lt
  have hint : code.toUInt64.toInt64.toInt = code.toNat := by
    have hsmall := show 2 * code.toNat < 2 ^ 64 by omega
    exact BitVec.toInt_eq_toNat_of_lt hsmall
  rw [hint]
  apply UInt8.toNat_inj.mp
  rw [UInt8.toNat_ofNat']
  omega

lemma dispatch_reject (cls code : UInt8) :
    dispatch (encodeErrorPdu id (.service ⟨cls, code, true⟩)).encode = some (id, .error ⟨cls, code, true⟩) := by
  let idElem := uintElem (contextPrimitive 0) id.toUInt64
  let reason := intElem (contextPrimitive cls.toNat) code.toUInt64.toInt64
  have hcls : cls.toNat < 2 ^ 28 := Nat.lt_trans cls.toNat_lt (by decide)
  have hnarrow : (cons tagRejectPdu [idElem, reason]).Narrow :=
    forall_mem_cons.mpr ⟨by decide, forall_mem_cons.mpr ⟨by decide, intElem_narrow hcls code.toUInt64.toInt64⟩⟩
  have hcnt : (cons tagRejectPdu [idElem, reason]).content = idElem.encode ++ (reason.encode ++ []) := rfl
  have hlen := length_idElem id (reason.encode ++ [])
  have hreason := (length_encode_narrow (e := reason) rfl).2
  have hcode : reason.content.length ≤ 8 := length_intElem_content _ _
  have hid : idElem.content.length ≤ 9 := length_uintElem_content _ _
  have hfits : idElem.Fits := ⟨uintElem_low (by decide) _, lt_of_le_of_lt (size_le (uintElem_low (by decide) _)) (by omega)⟩
  rw [← hcnt, append_nil] at hlen
  show dispatch (cons tagRejectPdu [idElem, reason]).encode = _
  unfold dispatch
  rw [new_encode, readTlv_narrow rfl hnarrow (by omega)]
  dsimp only
  rw [if_neg (by decide), if_neg (by decide), if_pos (by rfl), hcnt, new, optional_encode (t := contextPrimitive 0) hfits rfl]
  dsimp only
  rw [readTlv_narrow rfl (intElem_narrow hcls _) (lt_of_le_of_lt hcode (by decide)), Option.map_some,
    decodeUint_uintElem]
  dsimp only
  rw [decodeInt_intElem, toUInt32_ofNat_toNat]
  dsimp only
  rw [code_int]
  simp [contextPrimitive]

/-- A service error reaches the caller as it was returned, unless it is no reject and has the class 0. -/
theorem service_error_delivered_iff (id : UInt32) (e : ServiceError) :
    dispatch (encodeErrorPdu id (.service e)).encode = some (id, .error e) ↔ e.rejected = true ∨ e.cls ≠ 0 := by
  obtain ⟨cls, code, rejected⟩ := e
  cases rejected with
  | true => simp [dispatch_reject]
  | false =>
    show dispatch (confirmedErrorPdu id (errorClassChoice (.service ⟨cls, code, false⟩))).encode = _ ↔ _
    have hlt := cls.toNat_lt
    by_cases hcls : cls = 0
    · subst hcls
      have hchoice : errorClassChoice (.service ⟨0, code, false⟩) = (4, 0) := rfl
      rw [hchoice, dispatch_confirmedErrorPdu (by decide)]
      simp
    have hchoice : errorClassChoice (.service ⟨cls, code, false⟩) = (cls.toNat, code.toUInt64.toInt64) := if_pos hcls
    rw [hchoice, dispatch_confirmedErrorPdu (by omega), code_int]
    simp [hcls]

/-- A handler that fails with class 0 is reported as having failed with class 4. -/
theorem classless_error_changed :
    dispatch (encodeErrorPdu 1 (.service ⟨0, 7, false⟩)).encode = some (1, .error ⟨4, 0, false⟩) :=
  dispatch_confirmedErrorPdu (by decide)

section Calls
variable (hreq : (confirmedRequest id service).Fits)
  (hhandle : handle ⟨id, service.tag.number, service.content⟩ = .ok resp)
include hreq hhandle

lemma call_of_dispatch {result : Except ServiceError (List UInt8)}
    (h : dispatch (sendResponse maxPdu id resp) = some (id, result)) :
    call handle maxPdu id service = some result := by
  have hanswer : answer handle maxPdu (confirmedRequest id service).encode = _ := answer_confirmedRequest hreq
  rw [hhandle] at hanswer
  unfold call
  rw [hanswer, Option.bind_some, h]
  exact if_pos rfl

/-- The response comes back, unless it is longer than a PDU may be. -/
theorem call_cases (hlow : resp.AllLow)
    (hsz : maxPdu = 0 ∨ (confirmedResponse id resp).size ≤ maxPdu → (confirmedResponse id resp).size < 2 ^ 32) :
    (0 < maxPdu ∧ maxPdu < (confirmedResponse id resp).size) ∧
        call handle maxPdu id service = some (.error resourceError) ∨
      resp.Fits ∧ call handle maxPdu id service = some (.ok resp.encode) := by
  have hpdu : (confirmedResponse id resp).AllLow := confirmedResponse_low hlow
  have hlen := length_encode _ hpdu
  by_cases hover : 0 < maxPdu ∧ maxPdu < (confirmedResponse id resp).size
  · refine .inl ⟨hover, call_of_dispatch hreq hhandle ?_⟩
    have hsend : sendResponse maxPdu id resp = (confirmedErrorPdu id (3, 0)).encode := if_pos (by omega)
    rw [hsend, dispatch_confirmedErrorPdu (by decide)]
    rfl
  have hfits : (confirmedResponse id resp).Fits := ⟨hpdu, hsz (by omega)⟩
  refine .inr ⟨fits_response hfits, call_of_dispatch hreq hhandle ?_⟩
  have hsend : sendResponse maxPdu id resp = (confirmedResponse id resp).encode := if_neg (by omega)
  rw [hsend, dispatch_confirmedResponse hfits]

end Calls

def tagDataArray : ℕ := 1
def tagDataStructure : ℕ := 2
def tagDataBoolean : ℕ := 3
def tagDataBitString : ℕ := 4
def tagDataInteger : ℕ := 5
def tagDataUnsigned : ℕ := 6
def tagDataFloat : ℕ := 7
def tagDataOctetString : ℕ := 9
def tagDataVisString : ℕ := 10
def tagDataGenTime : ℕ := 11
def tagDataBinTime : ℕ := 12
def tagDataMmsString : ℕ := 16
def tagDataUtcTime : ℕ := 17

mutual
/-- The element of a value; the empty value has none, and is left out of an array or structure. -/
def dataElement : Value → Option Element
  | .none => none
  | .array children => some (cons (contextConstructed tagDataArray) (dataElements children))
  | .struct members => some (cons (contextConstructed tagDataStructure) (dataElements members))
  | .boolean b => some (boolElem (contextPrimitive tagDataBoolean) b)
  | .bitString bs => some (bitStringElem (contextPrimitive tagDataBitString) bs)
  | .integer n => some (intElem (contextPrimitive tagDataInteger) n)
  | .unsigned n => some (uintElem (contextPrimitive tagDataUnsigned) n)
  | .float32 bits => some (prim (contextPrimitive tagDataFloat) (float32Octets bits))
  | .float64 bits => some (prim (contextPrimitive tagDataFloat) (float64Octets bits))
  | .octetString b => some (prim (contextPrimitive tagDataOctetString) b)
  | .visibleString b => some (prim (contextPrimitive tagDataVisString) b)
  | .generalizedTime b => some (prim (contextPrimitive tagDataGenTime) b)
  | .binaryTime b => some (prim (contextPrimitive tagDataBinTime) b)
  | .mmsString b => some (prim (contextPrimitive tagDataMmsString) b)
  | .utcTime b => some (prim (contextPrimitive tagDataUtcTime) b.octets)
  -- Only valid inside an access result, as its failure alternative.
  | .dataAccessError e => some (uintElem (contextPrimitive 0) e.code.toUInt64)

def dataElements : List Value → List Element
  | [] => []
  | v :: vs =>
    match dataElement v with
    | some e => e :: dataElements vs
    | none => dataElements vs
end

open Value Decoder Except DataAccessError

def tagGraphicString : Tag := ⟨.universal, false, 25⟩

def maxValueDepth : ℕ := 32

inductive DecodeError where
  | asn1 (e : Error)
  | protocol (text : String)

def DataAccessError.fromCode (code : UInt8) : DataAccessError :=
  match code.toNat with
  | 0 => objectInvalidated
  | 1 => hardwareFault
  | 2 => temporarilyUnavailable
  | 3 => objectAccessDenied
  | 4 => objectUndefined
  | 5 => invalidAddress
  | 6 => typeUnsupported
  | 7 => typeInconsistent
  | 8 => objectAttributeInconsistent
  | 9 => objectAccessUnsupported
  | 10 => objectNonExistent
  | 11 => objectValueInvalid
  | _ => other code

def quieted (bits : UInt32) : UInt32 :=
  if bits.toNat / 2 ^ 23 % 2 ^ 8 = 255 ∧ bits.toNat % 2 ^ 23 ≠ 0 then bits ||| 0x400000 else bits

def decodeFloat (content : List UInt8) : Except DecodeError Value :=
  if content.length = 5 then .ok (.float32 (quieted (UInt32.ofNat (ofOctets content.tail))))
  else if content.length = 9 then .ok (.float64 (UInt64.ofNat (ofOctets content.tail)))
  else .error (.asn1 (.badValue ("floating point of " ++ toString content.length ++ " octets")))

def utcTimeRaw (content : List UInt8) : Except DecodeError Value :=
  if h : content.length = 8 then .ok (.utcTime ⟨content, h⟩)
  else .error (.protocol ("UtcTime needs 8 octets, got " ++ toString content.length))

/-- The value that a tag and a content are; `children` reads the values in an array or a structure. -/
def decodeDataTlv (children : List UInt8 → Except DecodeError (List Value)) (tag : Tag) (content : List UInt8) :
    Except DecodeError Value :=
  if tag.cls ≠ .contextSpecific then .error (.protocol ("data with tag " ++ tag.text))
  else if tag.number = tagDataArray then (children content).map .array
  else if tag.number = tagDataStructure then (children content).map .struct
  else if tag.number = tagDataBoolean then ((decodeBool content).mapError .asn1).map .boolean
  else if tag.number = tagDataBitString then ((decodeBitString content).mapError .asn1).map .bitString
  else if tag.number = tagDataInteger then
    ((decodeInt content).mapError .asn1).map fun n => .integer (Int64.ofInt n)
  else if tag.number = tagDataUnsigned then
    ((decodeUint content).mapError .asn1).map fun n => .unsigned (UInt64.ofNat n)
  else if tag.number = tagDataFloat then decodeFloat content
  else if tag.number = tagDataOctetString then .ok (.octetString content)
  else if tag.number = tagDataVisString then .ok (.visibleString content)
  else if tag.number = tagDataGenTime then .ok (.generalizedTime content)
  else if tag.number = tagDataBinTime then
    if content.length ≠ 4 ∧ content.length ≠ 6 then
      .error (.protocol ("binary-time of " ++ toString content.length ++ " octets"))
    else .ok (.binaryTime content)
  else if tag.number = tagDataMmsString then .ok (.mmsString content)
  else if tag.number = tagDataUtcTime then utcTimeRaw content
  -- An access error inside a structure or array, as some servers send it.
  else if tag.number = 0 ∧ tag.constructed = false then
    ((decodeUint content).mapError .asn1).map fun n => .dataAccessError (.fromCode (UInt8.ofNat n))
  else .error (.protocol ("unsupported data tag [" ++ toString tag.number ++ "]"))

/-- Decodes a value of which `left` levels may be nested. -/
def decodeDataAt : (left : ℕ) → Decoder → Except DecodeError (Value × Decoder)
  | 0, _ => .error (.protocol ("data nesting exceeds " ++ toString maxValueDepth))
  | left + 1, d =>
    match d.readTlv with
    | .error e => .error (.asn1 e)
    | .ok ((tag, content), next) =>
      let children (content : List UInt8) := readAll (decodeDataAt left) (content.length + 1) (new content)
      (decodeDataTlv children tag content).map fun v => (v, next)

def decodeData : Decoder → Except DecodeError (Value × Decoder) := decodeDataAt (maxValueDepth + 1)

def decodeAccessResult (d : Decoder) : Except DecodeError (Value × Decoder) :=
  match d.readTag with
  | .error e => .error (.asn1 e)
  | .ok (tag, _) =>
    if tag = contextPrimitive 0 then
      match d.readTlv with
      | .error e => .error (.asn1 e)
      | .ok ((_, content), next) =>
        ((decodeUint content).mapError .asn1).map fun n => (.dataAccessError (.fromCode (UInt8.ofNat n)), next)
    else decodeData d

/-- A not-a-number of 32 bits whose quiet bit is clear. -/
def Signalling (bits : UInt32) : Prop :=
  bits.toNat / 2 ^ 23 % 2 ^ 8 = 255 ∧ bits.toNat % 2 ^ 23 ≠ 0 ∧ bits.toNat / 2 ^ 22 % 2 = 0

namespace Value

mutual
def levels : Value → ℕ
  | array vs | struct vs => levelsAll vs + 1
  | _ => 1

def levelsAll : List Value → ℕ
  | [] => 0
  | v :: vs => max (levels v) (levelsAll vs)
end

mutual
def WellFormed : Value → Prop
  | array vs | struct vs => WellFormedAll vs
  | none => False
  | bitString bs => Packed bs
  | binaryTime b => b.length = 4 ∨ b.length = 6
  | _ => True

def WellFormedAll : List Value → Prop
  | [] => True
  | v :: vs => WellFormed v ∧ WellFormedAll vs
end

mutual
def Exact : Value → Prop
  | array vs | struct vs => ExactAll vs
  | float32 bits => ¬ Signalling bits
  | dataAccessError (.other code) => 11 < code.toNat
  | _ => True

def ExactAll : List Value → Prop
  | [] => True
  | v :: vs => Exact v ∧ ExactAll vs
end

mutual
def reread : Value → Value
  | array vs => array (rereadAll vs)
  | struct vs => struct (rereadAll vs)
  | float32 bits => float32 (quieted bits)
  | dataAccessError e => dataAccessError (.fromCode e.code)
  | v => v

def rereadAll : List Value → List Value
  | [] => []
  | v :: vs => reread v :: rereadAll vs
end

lemma levels_pos (v : Value) : 0 < v.levels := by
  cases v <;> exact Nat.succ_pos _

lemma WellFormed.element {v : Value} (h : v.WellFormed) : ∃ e, dataElement v = some e := by
  cases v with
  | none => exact h.elim
  | _ => exact ⟨_, rfl⟩

lemma or_quiet_eq_iff (bits : UInt32) : bits ||| 0x400000 = bits ↔ bits.toNat / 2 ^ 22 % 2 = 1 := by
  have hbit (n : ℕ) : n.testBit 22 ↔ n / 2 ^ 22 % 2 = 1 := by
    rw [Nat.testBit_eq_decide_div_mod_eq, decide_eq_true_eq]
  have hquiet : (0x400000 : UInt32).toNat = 2 ^ 22 := rfl
  rw [← UInt32.toNat_inj, UInt32.toNat_or, hquiet, ← hbit]
  constructor
  · intro h
    rw [← h, Nat.testBit_or, Nat.testBit_two_pow_self, Bool.or_true]
  intro h
  apply Nat.eq_of_testBit_eq
  intro i
  rw [Nat.testBit_or, Nat.testBit_two_pow]
  by_cases hi : 22 = i
  · rw [← hi, h, Bool.true_or]
  · rw [decide_eq_false hi, Bool.or_false]

lemma quieted_eq_iff (bits : UInt32) : quieted bits = bits ↔ ¬ Signalling bits := by
  unfold quieted Signalling
  split
  next h =>
    have hodd := or_quiet_eq_iff bits
    constructor
    · intro heq hsig
      have hone := hodd.mp heq
      omega
    intro hsig
    apply hodd.mpr
    by_contra hz
    exact hsig ⟨h.1, h.2, by omega⟩
  · next h => exact ⟨fun _ hsig => h ⟨hsig.1, hsig.2.1⟩, fun _ => rfl⟩

lemma fromCode_eq_iff (e : DataAccessError) :
    dataAccessError (.fromCode e.code) = .dataAccessError e ↔ (dataAccessError e).Exact := by
  rw [dataAccessError.injEq]
  cases e with
  | other code =>
    show fromCode code = .other code ↔ 11 < code.toNat
    unfold fromCode
    -- The named codes are those up to 11.
    split
    case h_13 =>
      rw [eq_self, true_iff]
      simp only [imp_false] at *
      omega
    all_goals
      next hcode => simp [hcode]
  | _ => exact ⟨fun _ => trivial, fun _ => rfl⟩

mutual
theorem reread_eq_iff : (v : Value) → (v.reread = v ↔ v.Exact)
  | array vs => by
    rw [reread, Exact, array.injEq]
    exact rereadAll_eq_iff vs
  | struct vs => by
    rw [reread, Exact, struct.injEq]
    exact rereadAll_eq_iff vs
  | float32 bits => by
    rw [reread, Exact, float32.injEq]
    exact quieted_eq_iff bits
  | dataAccessError e => fromCode_eq_iff e
  | none | boolean _ | bitString _ | integer _ | unsigned _ | float64 _ | octetString _ | visibleString _
  | generalizedTime _ | binaryTime _ | mmsString _ | utcTime _ => ⟨fun _ => trivial, fun _ => rfl⟩

theorem rereadAll_eq_iff : (vs : List Value) → (rereadAll vs = vs ↔ ExactAll vs)
  | [] => ⟨fun _ => trivial, fun _ => rfl⟩
  | v :: vs => by
    rw [rereadAll, ExactAll, List.cons.injEq]
    exact and_congr (reread_eq_iff v) (rereadAll_eq_iff vs)
end

end Value

open Element

mutual
theorem dataElement_low : (v : Value) → (e : Element) → dataElement v = some e → e.AllLow
  | .none, _, h => by cases h
  | .array children, _, h => by
    cases h
    exact cons_low (by decide) (dataElements_low children)
  | .struct members, _, h => by
    cases h
    exact cons_low (by decide) (dataElements_low members)
  | .boolean _, _, h | .bitString _, _, h | .integer _, _, h | .unsigned _, _, h | .float32 _, _, h
  | .float64 _, _, h | .octetString _, _, h | .visibleString _, _, h | .generalizedTime _, _, h
  | .binaryTime _, _, h | .mmsString _, _, h | .utcTime _, _, h | .dataAccessError _, _, h => by
    cases h
    exact Nat.le_of_ble_eq_true rfl

theorem dataElements_low : (vs : List Value) → AllLows (dataElements vs)
  | [] => trivial
  | v :: vs => by
    unfold dataElements
    split
    · next e he => exact ⟨dataElement_low v e he, dataElements_low vs⟩
    · exact dataElements_low vs
end

def ReadsBack (read : Decoder → Except DecodeError (Value × Decoder)) (v : Value) (e : Element) : Prop :=
  ∀ off rest, read ⟨off, e.encode ++ rest⟩ = .ok (v, ⟨off + e.size, rest⟩)

def Refuses (read : Decoder → Except DecodeError (Value × Decoder)) (err : DecodeError) (e : Element) : Prop :=
  ∀ off rest, read ⟨off, e.encode ++ rest⟩ = .error err

def tooNested : DecodeError := .protocol ("data nesting exceeds " ++ toString maxValueDepth)

variable {e : Element} {v : Value} {left : ℕ}

lemma dataElements_cons (he : dataElement v = some e) (vs : List Value) :
    dataElements (v :: vs) = e :: dataElements vs := by
  rw [dataElements, he]

variable {off fuel : ℕ} {vs : List Value}

lemma readAll_dataElements (hvs : WellFormedAll vs)
    (hrd : ∀ v e, dataElement v = some e → v.WellFormed → e.content.length < 2 ^ 32 → ∀ off rest,
      decodeDataAt left ⟨off, e.encode ++ rest⟩ =
        if v.levels ≤ left then .ok (v.reread, ⟨off + e.size, rest⟩) else .error tooNested)
    (hsz : sizes (dataElements vs) < 2 ^ 32) (hfuel : sizes (dataElements vs) < fuel) :
    readAll (decodeDataAt left) fuel ⟨off, encodeAll (dataElements vs)⟩ =
      if levelsAll vs ≤ left then .ok (rereadAll vs) else .error tooNested := by
  obtain ⟨fuel, rfl⟩ : ∃ k, fuel = k + 1 := ⟨fuel - 1, by omega⟩
  induction vs generalizing off fuel with
  | nil => rfl
  | cons v vs ih =>
    obtain ⟨e, he⟩ := hvs.1.element
    have hlow := dataElement_low v e he
    have hlt := length_content_lt hlow
    rw [dataElements_cons he, sizes_cons] at hsz hfuel
    obtain ⟨fuel, rfl⟩ : ∃ k, fuel = k + 1 := ⟨fuel - 1, by omega⟩
    have hmax : levelsAll (v :: vs) = max v.levels (levelsAll vs) := rfl
    rw [dataElements_cons he, encodeAll_cons, readAll, if_pos (more_encode hlow), hrd v e he hvs.1 (by omega), hmax]
    by_cases hfst : v.levels ≤ left
    · rw [if_pos hfst]
      dsimp only
      rw [ih hvs.2 (by omega) fuel (by omega)]
      by_cases hrs : levelsAll vs ≤ left
      · rw [if_pos hrs, if_pos (by omega)]
        rfl
      · rw [if_neg hrs, if_neg (by omega)]
        rfl
    · rw [if_neg hfst, if_neg (by omega)]

lemma decodeDataTlv_leaf {children : List UInt8 → Except DecodeError (List Value)}
    (he : dataElement v = some e) (hv : v.WellFormed) (harray : ∀ vs, v ≠ .array vs) (hstruct : ∀ vs, v ≠ .struct vs) :
    decodeDataTlv children e.tag e.content = .ok v.reread := by
  cases v with
  | none => cases he
  | array vs => exact absurd rfl (harray vs)
  | struct vs => exact absurd rfl (hstruct vs)
  | boolean b =>
    cases he
    cases b <;> rfl
  | bitString bs =>
    cases he
    show ((decodeBitString (bitStringOctets bs)).mapError _).map _ = _
    rw [decodeBitString_octets hv]
    rfl
  | integer n =>
    cases he
    show ((decodeInt (intElem (contextPrimitive tagDataInteger) n).content).mapError _).map _ = _
    rw [decodeInt_intElem]
    show ok (integer (Int64.ofInt n.toInt)) = _
    rw [Int64.ofInt_toInt]
    rfl
  | unsigned n =>
    cases he
    show ((decodeUint (uintElem (contextPrimitive tagDataUnsigned) n).content).mapError _).map _ = _
    rw [decodeUint_uintElem]
    show ok (unsigned (UInt64.ofNat n.toNat)) = _
    rw [UInt64.ofNat_toNat]
    rfl
  | float32 bits =>
    cases he
    have hbits : ofOctets (beOctets bits.toNat 4) = bits.toNat := ofOctets_beOctets_of_lt bits.toNat_lt
    show ok (float32 (quieted (UInt32.ofNat (ofOctets (beOctets bits.toNat 4))))) = _
    rw [hbits, UInt32.ofNat_toNat]
    rfl
  | float64 bits =>
    cases he
    have hbits : ofOctets (beOctets bits.toNat 8) = bits.toNat := ofOctets_beOctets_of_lt bits.toNat_lt
    show ok (float64 (UInt64.ofNat (ofOctets (beOctets bits.toNat 8)))) = _
    rw [hbits, UInt64.ofNat_toNat]
    rfl
  | binaryTime b =>
    cases he
    have hv : b.length = 4 ∨ b.length = 6 := hv
    show (if b.length ≠ 4 ∧ b.length ≠ 6 then _ else _) = _
    rw [if_neg (by omega)]
    rfl
  | utcTime b =>
    cases he
    show utcTimeRaw b.octets = _
    rw [utcTimeRaw, dif_pos b.length_eq]
    rfl
  | dataAccessError err =>
    cases he
    show ((decodeUint (uintElem (contextPrimitive 0) err.code.toUInt64).content).mapError _).map _ = _
    rw [decodeUint_uintElem]
    show ok (dataAccessError (.fromCode (UInt8.ofNat err.code.toUInt64.toNat))) = _
    rw [UInt8.toNat_toUInt64, UInt8.ofNat_toNat]
    rfl
  | octetString | visibleString | generalizedTime | mmsString => cases he; rfl

lemma decodeDataAt_cons {n : ℕ} {es : List Element} {rest : List UInt8} (hes : AllLows es)
    (hn : n = tagDataArray ∨ n = tagDataStructure) (hlen : sizes es < 2 ^ 32) :
    decodeDataAt (left + 1) ⟨off, (cons (contextConstructed n) es).encode ++ rest⟩ =
      ((readAll (decodeDataAt left) (sizes es + 1) ⟨0, encodeAll es⟩).map
        (if n = tagDataArray then array else struct)).map
        fun v => (v, ⟨off + (cons (contextConstructed n) es).size, rest⟩) := by
  have hlow : (cons (contextConstructed n) es).AllLow := by
    apply cons_low _ hes
    rcases hn with rfl | rfl <;> decide
  have hcnt := length_content_cons (t := contextConstructed n) hes
  rw [decodeDataAt, readTlv_encode hlow (by omega)]
  dsimp only
  rw [content_cons, decodeDataTlv, if_neg (fun h => h rfl), length_encodeAll es hes]
  rcases hn with rfl | rfl <;> rfl

lemma decodeDataAt_encode (left : ℕ) : ∀ v e, dataElement v = some e → v.WellFormed → e.content.length < 2 ^ 32 →
    ∀ off rest, decodeDataAt left ⟨off, e.encode ++ rest⟩ =
      if v.levels ≤ left then .ok (v.reread, ⟨off + e.size, rest⟩) else .error tooNested := by
  induction left with
  | zero =>
    intro v e _ _ _ off rest
    rw [if_neg (Nat.not_le.mpr v.levels_pos)]
    rfl
  | succ left ih =>
    intro v e he hv hsz off rest
    have hlow := dataElement_low v e he
    -- The parts of an array or structure have one level less.
    have hps {vs : List Value} {n : ℕ} (hn : n = tagDataArray ∨ n = tagDataStructure) (hvs : WellFormedAll vs)
        (hlen : (cons (contextConstructed n) (dataElements vs)).content.length < 2 ^ 32) :
        decodeDataAt (left + 1) ⟨off, (cons (contextConstructed n) (dataElements vs)).encode ++ rest⟩ =
          if levelsAll vs + 1 ≤ left + 1 then .ok ((if n = tagDataArray then array else struct) (rereadAll vs),
            ⟨off + (cons (contextConstructed n) (dataElements vs)).size, rest⟩) else .error tooNested := by
      have hcnt := length_content_cons (t := contextConstructed n) (dataElements_low vs)
      rw [decodeDataAt_cons (dataElements_low vs) hn (by omega), readAll_dataElements hvs ih (by omega) (by omega)]
      by_cases hle : levelsAll vs ≤ left
      · rw [if_pos hle, if_pos (Nat.succ_le_succ hle)]
        rfl
      · rw [if_neg hle, if_neg fun h => hle (Nat.le_of_succ_le_succ h)]
        rfl
    cases v with
    | array vs =>
      cases he
      exact hps (.inl rfl) hv hsz
    | struct vs =>
      cases he
      exact hps (.inr rfl) hv hsz
    | _ =>
      rw [decodeDataAt, readTlv_encode hlow hsz, if_pos (by show 1 ≤ left + 1; omega)]
      dsimp only
      rw [decodeDataTlv_leaf he hv (by intro vs h; cases h) (by intro vs h; cases h)]
      rfl

lemma decodeDataAt_reread (he : dataElement v = some e) (hv : v.WellFormed)
    (hlev : v.levels ≤ left) (hlen : e.content.length < 2 ^ 32) : ReadsBack (decodeDataAt left) v.reread e := by
  intro off rest
  rw [decodeDataAt_encode left v e he hv hlen, if_pos hlev]

lemma length_of_readsBack (hlow : e.AllLow) (h : ReadsBack decodeData v e) : e.content.length < 2 ^ 32 := by
  have ht := hlow.tag.lt
  have hrd := h 0 []
  rw [List.append_nil, Element.encode_eq hlow] at hrd
  have htlv : readTlv ⟨0, tagOctets e.tag ++ (lengthOctets e.content.length ++ (e.content ++ []))⟩ = _ :=
    readTlv_mod e.content (by omega)
  rw [List.append_nil] at htlv
  rw [decodeData, decodeDataAt, htlv] at hrd
  dsimp only at hrd
  cases hval : decodeDataTlv (fun content => readAll (decodeDataAt maxValueDepth) (content.length + 1)
      (new content)) e.tag (e.content.take (e.content.length % 2 ^ 32)) with
  | error err =>
    rw [hval] at hrd
    cases hrd
  | ok v' =>
    rw [hval] at hrd
    have hoff := congrArg (fun r => r.toOption.map fun p : Value × Decoder => p.2.off) hrd
    have hsz := Element.size_eq hlow
    have htag := length_tagOctets_of_lt ht
    simp only [Except.map, Except.toOption, Option.map_some, Option.some.injEq] at hoff
    omega

def Value.readBack (v : Value) : Option (Except DecodeError Value) :=
  (dataElement v).map fun e => (decodeData (new e.encode)).map Prod.fst

lemma decodeData_encode (hlow : e.AllLow) (hlen : e.content.length < 2 ^ 32) (off : ℕ) (rest : List UInt8) :
    decodeData ⟨off, e.encode ++ rest⟩ =
      ((decodeData (new e.encode)).map Prod.fst).map fun v => (v, ⟨off + e.size, rest⟩) := by
  unfold decodeData decodeDataAt
  rw [new_encode, readTlv_encode hlow hlen, readTlv_encode hlow hlen]
  dsimp only
  generalize decodeDataTlv _ _ _ = read
  cases read with
  | error e => rfl
  | ok v => rfl

/-- A well-formed value of at most as many levels as the decoder reads comes back from its encoding exactly when
the encoding has a length and the value is exact; a value of more levels is refused. -/
theorem data_round_trip_iff (v : Value) (e : Element) (he : dataElement v = some e) (hv : v.WellFormed) :
    (v.levels ≤ maxValueDepth + 1 → (ReadsBack decodeData v e ↔ e.content.length < 2 ^ 32 ∧ v.Exact)) ∧
      (maxValueDepth + 1 < v.levels → e.content.length < 2 ^ 32 → Refuses decodeData tooNested e) := by
  refine ⟨fun hlev => ?_, fun hdeep hlen off rest => ?_⟩
  rotate_left
  · rw [decodeData, decodeDataAt_encode _ v e he hv hlen, if_neg (by omega)]
  have hreread (hlen : e.content.length < 2 ^ 32) : ReadsBack decodeData v.reread e :=
    decodeDataAt_reread he hv hlev hlen
  constructor
  · intro hbk
    have hlen := length_of_readsBack (dataElement_low v e he) hbk
    -- Both values are what is read, so that they are one.
    have hsm : v.reread = v := by
      have hrd := (hreread hlen 0 []).symm.trans (hbk 0 [])
      exact congrArg Prod.fst (ok.inj hrd)
    exact ⟨hlen, v.reread_eq_iff.mp hsm⟩
  · rintro ⟨hlen, hexact⟩
    have hbk := hreread hlen
    rwa [v.reread_eq_iff.mpr hexact] at hbk

def sampleValue : Value :=
  .struct [.integer (-129), .unsigned 0x8000000000000000, .bitString ⟨[0xa0], 3⟩, .float32 0x3f800000,
    .array [.binaryTime [0, 0, 0, 1, 0, 2], .boolean true], .dataAccessError .temporarilyUnavailable]

theorem data_round_trip_sample : ∃ e, dataElement sampleValue = some e ∧ ReadsBack decodeData sampleValue e := by
  have hexact : sampleValue.Exact :=
    ⟨trivial, trivial, trivial, (by unfold Exact Signalling; decide), ⟨trivial, trivial, trivial⟩, trivial, trivial⟩
  have hv : sampleValue.WellFormed := ⟨trivial, trivial, rfl, trivial, ⟨.inr rfl, trivial, trivial⟩, trivial, trivial⟩
  exact ⟨_, rfl, ((data_round_trip_iff sampleValue _ rfl hv).1 (by decide)).mpr ⟨by decide, hexact⟩⟩

/-- A signalling not-a-number comes back quiet. -/
theorem signalling_read_quiet : ∃ e, dataElement (.float32 0x7f800001) = some e ∧
    decodeData ⟨0, e.encode ++ []⟩ = .ok (.float32 0x7fc00001, ⟨e.size, []⟩) ∧
    ¬ ReadsBack decodeData (.float32 0x7f800001) e := by
  refine ⟨_, rfl, rfl, ?_⟩
  intro h
  have hrd := (h 0 []).symm.trans
    (rfl : decodeData ⟨0, (prim (contextPrimitive tagDataFloat) (float32Octets 0x7f800001)).encode ++ []⟩ =
      .ok (.float32 0x7fc00001, ⟨7, []⟩))
  have hbits : (0x7f800001 : UInt32) = 0x7fc00001 := float32.inj (congrArg Prod.fst (ok.inj hrd))
  exact absurd hbits (by decide)

end Iec61850.Mms

namespace Iec61850.Server
open Asn1

abbrev ConnId := ℕ

def unconfirmedQueueDepth : ℕ := 512

def tagUnconfirmed : Tag := contextConstructed 3

/-- An association. `closed` is set once nothing drains the queue any more. -/
structure ServerConn where
  peer : Option IpAddr := none
  maxPdu : ℕ := 0
  queue : List (List UInt8) := []
  closed : Bool := false
  inRequest : Bool := false
  after : List (List UInt8) := []

namespace ServerConn

def trySend (sc : ServerConn) (pdu : List UInt8) : ServerConn × Bool :=
  if sc.closed = false ∧ sc.queue.length < unconfirmedQueueDepth then
    ({ sc with queue := sc.queue ++ [pdu] }, true)
  else (sc, false)

def sendUnconfirmed (sc : ServerConn) (service : Element) : ServerConn × Bool :=
  let pdu := (cons tagUnconfirmed [service]).encode
  if sc.inRequest then ({ sc with after := sc.after ++ [pdu] }, true) else sc.trySend pdu

def sendAll (sc : ServerConn) : List Element → ServerConn × Bool
  | [] => (sc, true)
  | service :: rest =>
    let (sc, ok) := sc.sendUnconfirmed service
    if ok then sc.sendAll rest else (sc, false)

end ServerConn
end Iec61850.Server
