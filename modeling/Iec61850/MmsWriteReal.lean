import Iec61850.JournalWire

/-! Write from end to end: whether what a client reports as written is what the server wrote. -/
namespace Iec61850.Mms
open Asn1 Server Decoder

def svcWrite : ℕ := 5

/-- Why a write fails as a whole, or the only item of it. -/
inductive WriteError where
  | protocol (text : String)
  | call (e : CallError)
  | access (code : DataAccessError)
deriving DecidableEq

def objectName (domain item : String) : Element :=
  if domain = "" then prim (contextPrimitive 0) (Text.octets item)
  else
    cons (contextConstructed 1) [prim tagVisibleString (Text.octets domain), prim tagVisibleString (Text.octets item)]

def variableEntry (domain item : String) : Element :=
  cons tagSequence [cons (contextConstructed 0) [objectName domain item]]

def writeService (domain : String) (items : List String) (values : List Value) : Element :=
  cons (contextConstructed svcWrite)
    [cons (contextConstructed 0) (items.map (variableEntry domain)),
     cons (contextConstructed 0) (dataElements values)]

def writeResult (part : Tag × List UInt8) : Except DataAccessError Unit :=
  if part.1 = contextPrimitive 0 then
    let code := match decodeUint part.2 with
      | .ok n => n
      | .error _ => 0
    .error (.fromCode (UInt8.ofNat code))
  else .ok ()

def writeParts (resp : List UInt8) : Except Asn1.Error (List (Tag × List UInt8)) := do
  let (content, _) ← (new resp).expect (contextConstructed svcWrite)
  readAll readTlv (content.length + 1) (new content)

def parseWriteResponse (resp : List UInt8) : Except Asn1.Error (List (Except DataAccessError Unit)) :=
  (writeParts resp).map fun parts => parts.map writeResult

def connWrite (request : Element → Option (Except ServiceError (List UInt8))) (domain : String) (items : List String)
    (values : List Value) : Except WriteError (List (Except DataAccessError Unit)) :=
  if items.length ≠ values.length then .error (.protocol "write items/values length mismatch")
  else
    match request (writeService domain items values) with
    | none => .error (.call .unanswered)
    | some (.error e) => .error (.call (.service e))
    | some (.ok resp) => (parseWriteResponse resp).mapError fun e => .call (.asn1 e)

def clientWrite (request : Element → Option (Except ServiceError (List UInt8))) (domain item : String) (v : Value) :
    Except WriteError Unit :=
  match connWrite request domain [item] [v] with
  | .error e => .error e
  | .ok results =>
    match results.head? with
    | some (.error code) => .error (.access code)
    | _ => .ok ()

def parseVarSpec (entry : List UInt8) : Except DecodeError (String × String) := do
  let (spec, _) ← ((new entry).expect (contextConstructed 0)).mapError .asn1
  parseObjectName spec

/-- The targets of a request, where they can be read, and its values. -/
structure WriteItems where
  targets : List (Option (String × String))
  values : List Value

def parseWrite (content : List UInt8) : Except DecodeError WriteItems := do
  let (list, d) ← ((new content).expect (contextConstructed 0)).mapError .asn1
  let (data, _) ← (d.expect (contextConstructed 0)).mapError .asn1
  let entries ← (expectAll tagSequence (list.length + 1) (new list)).mapError .asn1
  let values ← readAll decodeData (data.length + 1) (new data)
  pure ⟨entries.map fun entry => (parseVarSpec entry).toOption, values⟩

abbrev ItemWriter (σ : Type) := σ → (domain item : String) → Value → σ × Except DataAccessError Unit

/-- What a server did with one value of a request. -/
structure Attempt where
  target : Option (String × String)
  value : Value
  result : Except DataAccessError Unit

variable {σ : Type}

def writeTo (w : ItemWriter σ) (s : σ) : Option (String × String) → Value → σ × Except DataAccessError Unit
  | some (domain, item), v => w s domain item v
  | none, _ => (s, .error .objectNonExistent)

def writeItems (w : ItemWriter σ) : List (Option (String × String)) → List Value → σ → σ × List Attempt
  | _, [], s => (s, [])
  | targets, v :: values, s =>
    let target := targets.head?.join
    let done := writeTo w s target v
    let rest := writeItems w targets.tail values done.1
    (rest.1, ⟨target, v, done.2⟩ :: rest.2)

def resultElement : Except DataAccessError Unit → Element
  | .ok _ => prim (contextPrimitive 1) []
  | .error code => uintElem (contextPrimitive 0) code.code.toUInt64

def handleWrite (w : ItemWriter σ) (s : σ) (content : List UInt8) : σ × List Attempt × Except HandlerError Element :=
  match parseWrite content with
  | .error _ => (s, [], .error .other)
  | .ok req =>
    let done := writeItems w req.targets req.values s
    (done.1, done.2, .ok (cons (contextConstructed svcWrite) (done.2.map fun a => resultElement a.result)))

def writeHandler (others : Request → Except HandlerError Element) (w : ItemWriter σ) (s : σ) (req : Request) :
    Except HandlerError Element :=
  if req.service = svcWrite then (handleWrite w s req.content).2.2 else others req

def requestOf (pdu : List UInt8) : Option Request :=
  match (new pdu).readTlv with
  | .error _ => none
  | .ok ((tag, content), _) => if tag = tagConfirmedRequest then parseConfirmedRequest content else none

def attempts (w : ItemWriter σ) (s : σ) (pdu : List UInt8) : List Attempt :=
  match requestOf pdu with
  | some req => if req.service = svcWrite then (handleWrite w s req.content).2.1 else []
  | none => []

open Element List Except Attempt

variable {domain item : String} {items : List String} {values : List Value} {e : Element}

lemma objectName_low (domain item : String) : (objectName domain item).AllLow := by
  unfold objectName
  split
  · exact prim_low (by decide) _
  · exact cons_low (by decide) ⟨prim_low (by decide) _, prim_low (by decide) _, trivial⟩

lemma variableEntry_low (domain item : String) : (variableEntry domain item).AllLow :=
  ⟨by decide, cons_low (by decide) ⟨objectName_low domain item, trivial⟩, trivial⟩

lemma writeService_low (domain : String) (items : List String) (values : List Value) :
    (writeService domain items values).AllLow :=
  cons_low (by decide) ⟨cons_low (by decide) (allLows_map (variableEntry_low domain) items),
    cons_low (by decide) (dataElements_low values), trivial⟩

lemma parseObjectName_objectName (h : (objectName domain item).Fits) :
    parseObjectName (encodeAll [objectName domain item]) = .ok (domain, item) := by
  unfold objectName at *
  by_cases hemp : domain = ""
  · rw [if_pos hemp] at h ⊢
    have hrd : (new (encodeAll [prim (contextPrimitive 0) (Text.octets item)])).readTlv = .ok _ :=
      readTlv_encode h.low h.length_lt
    have htag : (prim (contextPrimitive 0) (Text.octets item)).tag = contextPrimitive 0 := rfl
    have hne : contextPrimitive 0 ≠ contextConstructed 1 := by decide
    rw [hemp]
    unfold parseObjectName
    simp only [hrd, htag, hne, Except.mapError, bind, Except.bind, pure, Except.pure, if_true, if_false,
      content_prim, Text.fromUtf8Lossy_octets]
  · rw [if_neg hemp] at h ⊢
    exact parseObjectName_pair h

lemma parseVarSpec_variableEntry (h : (variableEntry domain item).Fits) :
    parseVarSpec (variableEntry domain item).content = .ok (domain, item) := by
  have hps := h.parts
  have hspec : (new (variableEntry domain item).content).expect (contextConstructed 0) = .ok _ :=
    expect_first hps.head rfl
  have hobj : parseObjectName (cons (contextConstructed 0) [objectName domain item]).content = .ok (domain, item) :=
    parseObjectName_objectName hps.head.parts.head
  unfold parseVarSpec
  simp only [hspec, Except.mapError, bind, Except.bind, hobj]

def valuesRead : List Value → Except DecodeError (List Value)
  | [] => .ok []
  | v :: values =>
    match v.readBack with
    | none => valuesRead values
    | some (.error e) => .error e
    | some (.ok v') => (valuesRead values).map (v' :: ·)

variable {v : Value} {vs : List Value}

lemma readAll_valuesRead {off fuel : ℕ} (h : AllFit (dataElements values))
    (hfuel : sizes (dataElements values) < fuel) :
    readAll decodeData fuel ⟨off, encodeAll (dataElements values)⟩ = valuesRead values := by
  induction values generalizing off fuel with
  | nil =>
    obtain ⟨fuel, rfl⟩ : ∃ k, fuel = k + 1 := ⟨fuel - 1, by omega⟩
    rfl
  | cons v values ih =>
    unfold valuesRead
    cases he : dataElement v with
    | none =>
      have hels : dataElements (v :: values) = dataElements values := by rw [dataElements, he]
      have hbk : v.readBack = none := by rw [Value.readBack, he]; rfl
      rw [hels] at h hfuel ⊢
      rw [hbk]
      exact ih h hfuel
    | some e =>
      have hbk : v.readBack = some ((decodeData (new e.encode)).map Prod.fst) := by rw [Value.readBack, he]; rfl
      rw [dataElements_cons he] at h hfuel
      have hlt := length_content_lt h.low.1
      rw [sizes_cons] at hfuel
      obtain ⟨fuel, rfl⟩ : ∃ k, fuel = k + 1 := ⟨fuel - 1, by omega⟩
      rw [dataElements_cons he, encodeAll_cons, readAll, if_pos (more_encode h.low.1),
        decodeData_encode h.low.1 h.head.length_lt, hbk]
      generalize (decodeData (new e.encode)).map Prod.fst = read
      cases read with
      | error err => rfl
      | ok v' =>
        show (readAll decodeData fuel _).map (v' :: ·) = (valuesRead values).map (v' :: ·)
        rw [ih h.tail (by omega)]

lemma valuesRead_of_faithful (h : ∀ v ∈ values, v.readBack = some (.ok v)) : valuesRead values = .ok values := by
  induction values with
  | nil => rfl
  | cons v values ih =>
    rw [valuesRead, h v mem_cons_self]
    rw [ih fun v' hv' => h v' (mem_cons_of_mem v hv')]
    rfl

lemma valuesRead_error (h : ∃ v ∈ values, ∃ err, v.readBack = some (.error err)) :
    ∃ err, valuesRead values = .error err := by
  induction values with
  | nil =>
    obtain ⟨v, hv, -⟩ := h
    cases hv
  | cons v values ih =>
    unfold valuesRead
    obtain ⟨v', hv', err, herr⟩ := h
    rcases hbk : v.readBack with _ | read
    · obtain rfl | hm := mem_cons.mp hv'
      · rw [hbk] at herr
        cases herr
      · exact ih ⟨v', hm, err, herr⟩
    rcases read with e | w
    · exact ⟨e, rfl⟩
    obtain rfl | hm := mem_cons.mp hv'
    · rw [hbk] at herr
      cases herr
    · obtain ⟨e, he⟩ := ih ⟨v', hm, err, herr⟩
      exact ⟨e, by rw [he]; rfl⟩

lemma valuesRead_ok (h : ¬ ∃ v ∈ values, ∃ err, v.readBack = some (.error err)) :
    ∃ vs, valuesRead values = .ok vs ∧ vs.length ≤ values.length ∧
      (vs.length = values.length → List.Forall₂ (fun v v' => v.readBack = some (.ok v')) values vs) := by
  induction values with
  | nil => exact ⟨[], rfl, Nat.le_refl 0, fun _ => .nil⟩
  | cons v values ih =>
    obtain ⟨vs, hvs, hle, hall⟩ := ih fun ⟨v', hv', herr⟩ => h ⟨v', mem_cons_of_mem v hv', herr⟩
    unfold valuesRead
    rcases hbk : v.readBack with _ | read
    · refine ⟨vs, hvs, Nat.le_succ_of_le hle, fun hlen => ?_⟩
      rw [length_cons] at hlen
      omega
    cases read with
    | error e => exact absurd ⟨v, mem_cons_self, e, hbk⟩ h
    | ok v' =>
      refine ⟨v' :: vs, by rw [hvs]; rfl, Nat.succ_le_succ hle, fun hlen => ?_⟩
      exact .cons hbk (hall (Nat.succ.inj hlen))

variable {σ : Type} {w : ItemWriter σ} {s : σ} {id : UInt32} {maxPdu : ℕ}
  {others : Request → Except HandlerError Element}

def targetsOf (domain : String) (items : List String) : List (Option (String × String)) :=
  items.map fun item => some (domain, item)

lemma entries_read (h : AllFit (items.map (variableEntry domain))) :
    ((items.map (variableEntry domain)).map content).map (fun entry => (parseVarSpec entry).toOption) =
      targetsOf domain items := by
  rw [targetsOf, map_map, map_map]
  apply map_congr_left
  intro item hitem
  show (parseVarSpec (variableEntry domain item).content).toOption = some (domain, item)
  rw [parseVarSpec_variableEntry (h.of_mem (mem_map_of_mem hitem))]
  rfl

lemma parseWrite_request (h : (writeService domain items values).Fits) :
    parseWrite (writeService domain items values).content =
      (valuesRead values).map fun vs => ⟨targetsOf domain items, vs⟩ := by
  have hps := h.parts
  have hent := hps.head.parts
  have hdata := hps.tail.head.parts
  have hfst : (new (writeService domain items values).content).expect (contextConstructed 0) = .ok _ :=
    expect_first hps.head rfl
  have hsnd : expect (contextConstructed 0)
      ⟨(cons (contextConstructed 0) (items.map (variableEntry domain))).size,
        encodeAll [cons (contextConstructed 0) (dataElements values)]⟩ = .ok _ :=
    expect_encode hps.tail.head rfl
  have hall : expectAll tagSequence
      ((cons (contextConstructed 0) (items.map (variableEntry domain))).content.length + 1)
      (new (cons (contextConstructed 0) (items.map (variableEntry domain))).content) = .ok _ :=
    expectAll_encodeAll hent (fun e he => by
      obtain ⟨item, -, rfl⟩ := mem_map.mp he
      rfl) (by rw [length_content_cons hent.low]; omega)
  have hrd : readAll decodeData ((cons (contextConstructed 0) (dataElements values)).content.length + 1)
      (new (cons (contextConstructed 0) (dataElements values)).content) = valuesRead values :=
    readAll_valuesRead hdata (by rw [length_content_cons hdata.low]; omega)
  unfold parseWrite
  simp only [hfst, hsnd, hall, hrd, Except.mapError, bind, Except.bind, pure, Except.pure, entries_read hent]
  cases valuesRead values with
  | error e => rfl
  | ok vs => rfl

lemma length_writeItems (targets : List (Option (String × String))) :
    (writeItems w targets vs s).2.length = vs.length := by
  induction vs generalizing targets s with
  | nil => rfl
  | cons v vs ih => exact congrArg (· + 1) (ih targets.tail)

variable {i : ℕ} {results : List (Except DataAccessError Unit)}

lemma getElem?_writeItems {targets : List (Option (String × String))} (hv : vs[i]? = some v) :
    ∃ result, (writeItems w targets vs s).2[i]? = some ⟨targets[i]?.join, v, result⟩ := by
  induction vs generalizing targets s i with
  | nil => simp at hv
  | cons v' vs ih =>
    cases i with
    | zero =>
      cases hv
      have hhead : targets[0]?.join = targets.head?.join := by rw [head?_eq_getElem?]
      rw [hhead]
      exact ⟨_, rfl⟩
    | succ i =>
      obtain ⟨result, h⟩ := ih hv
      refine ⟨result, ?_⟩
      rw [getElem?_tail] at h
      exact h

def resultRead : Except DataAccessError Unit → Except DataAccessError Unit
  | .ok _ => .ok ()
  | .error code => .error (.fromCode code.code)

lemma resultRead_ok {result : Except DataAccessError Unit} (h : resultRead result = .ok ()) : result = .ok () := by
  cases result with
  | ok _ => rfl
  | error code => cases h

lemma resultElement_low (result : Except DataAccessError Unit) : (resultElement result).AllLow := by
  cases result with
  | ok _ => exact prim_low (by decide) _
  | error code => exact uintElem_low (by decide) _

lemma size_resultElement (result : Except DataAccessError Unit) : (resultElement result).size ≤ 4 := by
  cases result with
  | ok _ => exact Nat.le_of_ble_eq_true rfl
  | error code =>
    have hlow : (uintElem (contextPrimitive 0) code.code.toUInt64).AllLow := uintElem_low (by decide) _
    have hcode : code.code.toUInt64.toNat < 128 * 256 ^ 1 := by
      have := code.code.toNat_lt
      simp only [UInt8.toNat_toUInt64]
      omega
    have hlen : (uintElem (contextPrimitive 0) code.code.toUInt64).content.length ≤ 2 := by
      simpa [uintElem] using (lt_of_uintSize 9 (by decide) hcode).2
    have hsh : lengthSize (uintElem (contextPrimitive 0) code.code.toUInt64).content.length = 1 := if_pos (by omega)
    have hsz := size_eq hlow
    have htag : tagSize (uintElem (contextPrimitive 0) code.code.toUInt64).tag = 1 := rfl
    show (uintElem (contextPrimitive 0) code.code.toUInt64).size ≤ 4
    omega

lemma sizes_resultElements (results : List (Except DataAccessError Unit)) :
    sizes (results.map resultElement) ≤ 4 * results.length := by
  induction results with
  | nil => exact Nat.le_refl 0
  | cons result results ih =>
    have hfst := size_resultElement result
    rw [map_cons, sizes_cons, length_cons]
    omega

lemma writeResult_resultElement (result : Except DataAccessError Unit) :
    writeResult ((resultElement result).tag, (resultElement result).content) = resultRead result := by
  cases result with
  | ok _ => rfl
  | error code =>
    have htag : (resultElement (.error code)).tag = contextPrimitive 0 := rfl
    have hcode : decodeUint (resultElement (.error code)).content = .ok code.code.toUInt64.toNat :=
      decodeUint_uintElem (contextPrimitive 0) code.code.toUInt64
    unfold writeResult
    rw [if_pos htag, hcode]
    simp [resultRead]

def writeResponse (results : List (Except DataAccessError Unit)) : Element :=
  cons (contextConstructed svcWrite) (results.map resultElement)

lemma writeResponse_low (results : List (Except DataAccessError Unit)) : (writeResponse results).AllLow :=
  cons_low (by decide) (allLows_map resultElement_low results)

lemma parseWriteResponse_encode (h : (writeResponse results).Fits) :
    parseWriteResponse (writeResponse results).encode = .ok (results.map resultRead) := by
  have helements : AllFit (results.map resultElement) := h.parts
  have hlen : (writeResponse results).content.length = _ := length_content_cons helements.low
  have hcnt : (new (writeResponse results).encode).expect (contextConstructed svcWrite) = .ok _ :=
    expect_new h rfl
  have hps : readAll readTlv ((writeResponse results).content.length + 1)
      (new (writeResponse results).content) = .ok (parts (results.map resultElement)) := by
    apply readAll_encodeAll helements.low _ (by omega)
    apply forall₂_map_right_iff.mpr
    apply forall₂_same.mpr
    intro e he off rest
    have hfits := helements.of_mem he
    exact readTlv_encode hfits.low hfits.length_lt
  have hress : (parts (results.map resultElement)).map writeResult = results.map resultRead := by
    rw [parts, map_map, map_map]
    apply map_congr_left
    intro result _
    exact writeResult_resultElement result
  unfold parseWriteResponse writeParts
  simp only [hcnt, bind, Except.bind, hps, Except.map, hress]

lemma two_add_length_content_le (h : e.AllLow) : 2 + e.content.length ≤ e.size := by
  have hsz := size_eq h
  have htag : 0 < tagSize e.tag := by
    unfold tagSize
    repeat' split
    all_goals omega
  have hlen : 0 < lengthSize e.content.length := by
    unfold lengthSize
    repeat' split
    all_goals omega
  omega

lemma six_le_size_variableEntry (domain item : String) : 6 ≤ (variableEntry domain item).size := by
  have hlow := variableEntry_low domain item
  have h1 := two_add_length_content_le hlow
  have h2 := two_add_length_content_le hlow.2.1
  have h3 := two_add_length_content_le (objectName_low domain item)
  have h4 : (variableEntry domain item).content.length = _ := length_content_cons hlow.2
  have h5 : (cons (contextConstructed 0) [objectName domain item]).content.length = _ :=
    length_content_cons hlow.2.1.2
  simp only [sizes_cons, sizes_nil] at h4 h5
  omega

lemma six_mul_length_le (domain : String) (items : List String) (values : List Value) :
    6 * items.length ≤ (writeService domain items values).size := by
  have hent : 6 * items.length ≤ sizes (items.map (variableEntry domain)) := by
    induction items with
    | nil => exact Nat.zero_le _
    | cons item items ih =>
      have hfst := six_le_size_variableEntry domain item
      rw [map_cons, sizes_cons, length_cons]
      omega
  have hlow := writeService_low domain items values
  have h1 := length_content_lt hlow
  have h2 : (writeService domain items values).content.length = _ := length_content_cons hlow.2
  have h3 := length_content_lt hlow.2.1
  have h4 : (cons (contextConstructed 0) (items.map (variableEntry domain))).content.length = _ :=
    length_content_cons hlow.2.1.2
  simp only [sizes_cons, sizes_nil] at h2
  omega

lemma response_fits (h : (confirmedRequest id (writeService domain items values)).Fits)
    (hle : results.length ≤ items.length) : (confirmedResponse id (writeResponse results)).Fits := by
  have hlow := writeResponse_low results
  refine ⟨confirmedResponse_low hlow, ?_⟩
  have hrequest := six_mul_length_le domain items values
  have hsz := (fits_service h).lt
  have hsizes := sizes_resultElements results
  have hsvc : (writeResponse results).size ≤ _ := size_cons_le (by decide) hlow.2
  have hpdu : (confirmedResponse id (writeResponse results)).size ≤ _ := size_confirmedResponse_le hlow
  omega

section Calls
variable (hfits : (confirmedRequest id (writeService domain items values)).Fits)
include hfits

lemma requestOf_writeService : requestOf (confirmedRequest id (writeService domain items values)).encode =
      some ⟨id, svcWrite, (writeService domain items values).content⟩ := by
  unfold requestOf
  rw [new_encode, readTlv_encode hfits.low hfits.length_lt]
  dsimp only
  exact parse_confirmedRequest hfits

lemma attempts_writeService (hrd : valuesRead values = .ok vs) :
    attempts w s (confirmedRequest id (writeService domain items values)).encode =
      (writeItems w (targetsOf domain items) vs s).2 := by
  have hprs := parseWrite_request (fits_service hfits)
  rw [hrd] at hprs
  unfold attempts
  rw [requestOf_writeService hfits]
  dsimp only
  rw [if_pos rfl, handleWrite, hprs]
  rfl

lemma connWrite_unreadable {err : DecodeError} (hrd : valuesRead values = .error err)
    (results : List (Except DataAccessError Unit)) :
    connWrite (call (writeHandler others w s) maxPdu id) domain items values ≠ .ok results := by
  have hprs := parseWrite_request (fits_service hfits)
  rw [hrd] at hprs
  have hhandle : writeHandler others w s ⟨id, (writeService domain items values).tag.number,
      (writeService domain items values).content⟩ = .error .other := by
    have hsvc : (writeService domain items values).tag.number = svcWrite := rfl
    rw [writeHandler, if_pos hsvc, handleWrite, hprs]
    rfl
  have hanswer : answer (writeHandler others w s) maxPdu (confirmedRequest id (writeService domain items values)).encode =
      some (confirmedErrorPdu id (4, 0)).encode := by
    rw [answer_confirmedRequest hfits, hhandle]
    rfl
  have hcall : call (writeHandler others w s) maxPdu id (writeService domain items values) = some (.error ⟨4, 0, false⟩) := by
    unfold call
    rw [hanswer, Option.bind_some, dispatch_confirmedErrorPdu (by decide)]
    exact if_pos rfl
  unfold connWrite
  split
  · nofun
  · rw [hcall]
    nofun

lemma connWrite_readable (hlen : items.length = values.length) (hrd : valuesRead values = .ok vs)
    (hle : vs.length ≤ items.length) :
    (0 < maxPdu ∧ connWrite (call (writeHandler others w s) maxPdu id) domain items values =
      .error (.call (.service resourceError))) ∨
    connWrite (call (writeHandler others w s) maxPdu id) domain items values =
      .ok ((writeItems w (targetsOf domain items) vs s).2.map fun a => resultRead a.result) := by
  have hprs := parseWrite_request (fits_service hfits)
  rw [hrd] at hprs
  generalize hdone : (writeItems w (targetsOf domain items) vs s).2 = done
  have hdonelen : done.length = vs.length := by
    rw [← hdone]
    exact length_writeItems _
  have hhandle : writeHandler others w s ⟨id, (writeService domain items values).tag.number,
      (writeService domain items values).content⟩ = .ok (writeResponse (done.map result)) := by
    have hsvc : (writeService domain items values).tag.number = svcWrite := rfl
    rw [writeHandler, if_pos hsvc, handleWrite, hprs, writeResponse, map_map, ← hdone]
    rfl
  have hresp : (confirmedResponse id (writeResponse (done.map result))).Fits :=
    response_fits hfits (by rw [length_map]; omega)
  unfold connWrite
  rw [if_neg (not_not.mpr hlen)]
  obtain ⟨hover, hcall⟩ | ⟨hfit, hcall⟩ := call_cases hfits hhandle (writeResponse_low _) fun _ => hresp.lt
  · rw [hcall]
    exact .inl ⟨hover.1, rfl⟩
  rw [hcall]
  dsimp only
  rw [parseWriteResponse_encode hfit, map_map]
  exact .inr rfl

end Calls

/-- A write that does not fail has a result for each item, and where the result is a success the server wrote
this value to this item. So does the write of a single item. -/
structure WritesReal (others : Request → Except HandlerError Element) (w : ItemWriter σ) (s : σ) (maxPdu : ℕ)
    (id : UInt32) (domain : String) (items : List String) (values : List Value) : Prop where
  each : ∀ results, connWrite (call (writeHandler others w s) maxPdu id) domain items values = .ok results →
    results.length = items.length ∧ ∀ (i : ℕ) (item : String) (v : Value), items[i]? = some item → values[i]? = some v →
      results[i]? = some (.ok ()) →
      (attempts w s (confirmedRequest id (writeService domain items values)).encode)[i]? =
        some ⟨some (domain, item), v, .ok ()⟩
  single : ∀ (item : String) (v : Value), items = [item] → values = [v] →
    clientWrite (call (writeHandler others w s) maxPdu id) domain item v = .ok () →
    (attempts w s (confirmedRequest id (writeService domain items values)).encode)[0]? =
      some ⟨some (domain, item), v, .ok ()⟩

/-- The write fails, as the lists differ in length or the server cannot read a value; or every value comes
back from its encoding. -/
def Sound (items : List String) (values : List Value) : Prop :=
  items.length ≠ values.length ∨ (∃ v ∈ values, ∃ err, v.readBack = some (.error err)) ∨
    ∀ v ∈ values, v.readBack = some (.ok v)

lemma WritesReal.of_each
    (each : ∀ results, connWrite (call (writeHandler others w s) maxPdu id) domain items values = .ok results →
      results.length = items.length ∧ ∀ (i : ℕ) (item : String) (v : Value), items[i]? = some item →
        values[i]? = some v → results[i]? = some (.ok ()) →
        (attempts w s (confirmedRequest id (writeService domain items values)).encode)[i]? =
          some ⟨some (domain, item), v, .ok ()⟩) : WritesReal others w s maxPdu id domain items values := by
  refine ⟨each, ?_⟩
  rintro item v rfl rfl hclient
  unfold clientWrite at hclient
  split at hclient
  case h_1 => cases hclient
  case h_2 results hress =>
    obtain ⟨hlen, hstd⟩ := each results hress
    obtain ⟨result, rfl⟩ := length_eq_one_iff.mp hlen
    cases result with
    | error code => cases hclient
    | ok _ => exact hstd 0 item v rfl rfl rfl

lemma getElem?_targetsOf (h : items[i]? = some item) : (targetsOf domain items)[i]?.join = some (domain, item) := by
  rw [targetsOf, getElem?_map, h]
  rfl

lemma writesReal_of_sound (hfits : (confirmedRequest id (writeService domain items values)).Fits)
    (h : Sound items values) : WritesReal others w s maxPdu id domain items values := by
  apply WritesReal.of_each
  intro results hress
  obtain hlen | hunread | hfaithful := h
  · rw [connWrite, if_pos hlen] at hress
    cases hress
  · obtain ⟨err, herr⟩ := valuesRead_error hunread
    exact absurd hress (connWrite_unreadable hfits herr results)
  have hlen : items.length = values.length := by
    by_contra hne
    rw [connWrite, if_pos hne] at hress
    cases hress
  have hrd := valuesRead_of_faithful hfaithful
  obtain ⟨-, herror⟩ | hok := connWrite_readable hfits hlen hrd (Nat.le_of_eq hlen.symm)
  · rw [herror] at hress
    cases hress
  rw [hok] at hress
  cases hress
  rw [attempts_writeService hfits hrd]
  refine ⟨?_, ?_⟩
  · rw [length_map, length_writeItems, hlen]
  intro i item v hitem hv hres
  obtain ⟨result, hdone⟩ := getElem?_writeItems hv
  rw [getElem?_map, hdone] at hres
  have hok : result = .ok () := resultRead_ok (Option.some.inj hres)
  rw [hdone, getElem?_targetsOf hitem, hok]

def acceptAll : ItemWriter Unit := fun s _ _ _ => (s, .ok ())

lemma getElem?_acceptAll (hitem : items[i]? = some item) (hv : vs[i]? = some v) :
    (writeItems acceptAll (targetsOf domain items) vs ()).2[i]? = some ⟨some (domain, item), v, .ok ()⟩ := by
  induction vs generalizing items i with
  | nil => simp at hv
  | cons v' vs ih =>
    rcases items with _ | ⟨item', items⟩
    · simp at hitem
    cases i with
    | zero =>
      cases hv
      cases hitem
      rfl
    | succ i => exact ih hitem hv

lemma sound_of_writesReal (hfits : (confirmedRequest id (writeService domain items values)).Fits)
    (h : WritesReal others acceptAll () 0 id domain items values) : Sound items values := by
  by_cases hlen : items.length = values.length
  swap
  · exact .inl hlen
  by_cases hunread : ∃ v ∈ values, ∃ err, v.readBack = some (.error err)
  · exact .inr (.inl hunread)
  right
  right
  obtain ⟨vs, hrd, hle, hall⟩ := valuesRead_ok hunread
  obtain ⟨hpos, -⟩ | hok : (0 < 0 ∧ _) ∨
      connWrite (call (writeHandler others acceptAll ()) 0 id) domain items values = _ :=
    connWrite_readable hfits hlen hrd (by omega)
  · exact absurd hpos (Nat.lt_irrefl 0)
  obtain ⟨hcnt, hstd⟩ := h.each _ hok
  rw [List.length_map, length_writeItems] at hcnt
  have hbk := hall (by omega)
  intro v hv
  obtain ⟨i, hi⟩ := List.mem_iff_getElem?.mp hv
  have hlt : i < values.length := (List.getElem?_eq_some_iff.mp hi).1
  obtain ⟨item, hitem⟩ : ∃ item, items[i]? = some item := ⟨_, List.getElem?_eq_getElem (by omega)⟩
  obtain ⟨v', hv'⟩ : ∃ v', vs[i]? = some v' := ⟨_, List.getElem?_eq_getElem (by omega)⟩
  have hdone : (writeItems acceptAll (targetsOf domain items) vs ()).2[i]? = _ := getElem?_acceptAll hitem hv'
  have hres := hstd i item v hitem hi (by rw [List.getElem?_map, hdone]; rfl)
  rw [attempts_writeService hfits hrd, hdone] at hres
  -- the value that was written is what was read back of the value, and the value itself
  have hsm : v' = v := congrArg value (Option.some.inj hres)
  obtain ⟨hi1, rfl⟩ := List.getElem?_eq_some_iff.mp hi
  obtain ⟨hi2, rfl⟩ := List.getElem?_eq_some_iff.mp hv'
  have hpair := hbk.get hi1 hi2
  rw [List.get_eq_getElem, List.get_eq_getElem, hsm] at hpair
  exact hpair

/-- What a client reports as written is written exactly if the write fails for its arguments or every value
comes back from its encoding. -/
theorem writes_real_iff (domain : String) (items : List String) (values : List Value) (id : UInt32)
    (hfits : (confirmedRequest id (writeService domain items values)).size < 2 ^ 32) :
    (∀ (σ : Type) (others : Request → Except HandlerError Element) (w : ItemWriter σ) (s : σ) (maxPdu : ℕ),
      WritesReal others w s maxPdu id domain items values) ↔ Sound items values :=
  have hreq := ⟨confirmedRequest_low (writeService_low domain items values), hfits⟩
  ⟨fun h => sound_of_writesReal hreq (h Unit (fun _ => .error .other) acceptAll () 0),
    fun h _ _ _ _ _ => writesReal_of_sound hreq h⟩

def twoItems : List String := ["GGIO1$SP$A$setVal", "GGIO1$SP$B$setVal"]

theorem writes_real_two : Sound twoItems [.boolean true, .integer 7] ∧
    ∀ (σ : Type) (others : Request → Except HandlerError Element) (w : ItemWriter σ) (s : σ) (maxPdu : ℕ),
      WritesReal others w s maxPdu 1 "LD0" twoItems [.boolean true, .integer 7] := by
  have hsnd : Sound twoItems [.boolean true, .integer 7] := by
    refine .inr (.inr ?_)
    intro v hv
    obtain rfl | rfl : v = .boolean true ∨ v = .integer 7 := by simpa using hv
    · rfl
    · rfl
  exact ⟨hsnd, (writes_real_iff "LD0" twoItems [.boolean true, .integer 7] 1 (by decide +kernel)).mpr hsnd⟩

end Iec61850.Mms
