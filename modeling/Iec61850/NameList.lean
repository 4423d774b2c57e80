import Iec61850.MmsDecode
import Iec61850.Reading

/-! Pages under the limit of a PDU, and GetNameList with the client that follows the continuation. -/
namespace Iec61850.Server
open Asn1 Element

def pageEnvelope : ℕ := 32

def fillPageFrom (maxPdu : ℕ) : (page : List Element) → (used : ℕ) → List Element → List Element × Bool
  | page, _, [] => (page, false)
  | page, used, el :: els =>
    if 0 < maxPdu ∧ page ≠ [] ∧ maxPdu - pageEnvelope < used + el.size then (page, true)
    else fillPageFrom maxPdu (page ++ [el]) (used + el.size) els

def fillPage (els : List Element) (maxPdu : ℕ) : List Element × Bool := fillPageFrom maxPdu [] 0 els

def FitsPage (maxPdu : ℕ) (page : List Element) : Prop :=
  maxPdu = 0 ∨ page.length ≤ 1 ∨ sizes page ≤ maxPdu - pageEnvelope

lemma sizes_append (xs ys : List Element) : sizes (xs ++ ys) = sizes xs + sizes ys := by
  induction xs with
  | nil => simp
  | cons x xs ih =>
    rw [List.cons_append, sizes_cons, sizes_cons, ih]
    omega

lemma fillPageFrom_spec {maxPdu : ℕ} {page els : List Element} (hfits : FitsPage maxPdu page) :
    ∃ taken rest, els = taken ++ rest ∧
      fillPageFrom maxPdu page (sizes page) els = (page ++ taken, decide (rest ≠ [])) ∧
      FitsPage maxPdu (page ++ taken) ∧ (rest ≠ [] → page ++ taken ≠ [] ∧ 0 < maxPdu) := by
  induction els generalizing page with
  | nil => exact ⟨[], [], rfl, by simp [fillPageFrom], by simpa using hfits, by simp⟩
  | cons el els ih =>
    by_cases hcut : 0 < maxPdu ∧ page ≠ [] ∧ maxPdu - pageEnvelope < sizes page + el.size
    · refine ⟨[], el :: els, rfl, ?_, by simpa using hfits, fun _ => ⟨by simpa using hcut.2.1, hcut.1⟩⟩
      rw [fillPageFrom, if_pos hcut]
      simp
    have hsz : sizes (page ++ [el]) = sizes page + el.size := by
      rw [sizes_append]
      simp
    have hnx : FitsPage maxPdu (page ++ [el]) := by
      by_cases hz : maxPdu = 0
      · exact .inl hz
      by_cases hpage : page = []
      · right; left
        simp [hpage]
      right; right
      rw [hsz]
      have hrm : ¬ maxPdu - pageEnvelope < sizes page + el.size := by
        intro hlt
        exact hcut ⟨by omega, hpage, hlt⟩
      omega
    obtain ⟨taken, rest, hels, hfill, hfit, hne⟩ := ih hnx
    refine ⟨el :: taken, rest, by rw [hels]; rfl, ?_, ?_, ?_⟩
    · rw [fillPageFrom, if_neg hcut, ← hsz, hfill]
      simp
    · simpa using hfit
    · intro hrs
      exact ⟨by simp, (hne hrs).2⟩

lemma fillPage_spec (els : List Element) (maxPdu : ℕ) :
    ∃ page rest, els = page ++ rest ∧ fillPage els maxPdu = (page, decide (rest ≠ [])) ∧
      FitsPage maxPdu page ∧ (rest ≠ [] → page ≠ [] ∧ 0 < maxPdu) := by
  have hnil : FitsPage maxPdu [] := .inr (.inl (by simp))
  exact fillPageFrom_spec hnil

end Iec61850.Server

namespace Iec61850.Mms
open Asn1 Server Element Decoder Text List

def svcGetNameList : ℕ := 1

inductive ObjectClass where
  | namedVariable | scatteredAccess | namedVariableList | namedType | semaphore | eventCondition
  | eventAction | eventEnrollment | journal | domain | programInvocation | operatorStation

def ObjectClass.code : ObjectClass → Int64
  | namedVariable => 0
  | scatteredAccess => 1
  | namedVariableList => 2
  | namedType => 3
  | semaphore => 4
  | eventCondition => 5
  | eventAction => 6
  | eventEnrollment => 7
  | journal => 8
  | domain => 9
  | programInvocation => 10
  | operatorStation => 11

def namesAfter (after : String) (names : List String) : List String :=
  if after = "" then names
  else
    match names.findIdx? (· = after) with
    | some i => names.drop (i + 1)
    | none => names

def nameElement (name : String) : Element := prim tagVisibleString (octets name)

def nameListElement (page : List Element) (more : Bool) : Element :=
  cons (contextConstructed svcGetNameList) [cons (contextConstructed 0) page, boolElem (contextPrimitive 1) more]

/-- One page of the names of a class in a domain, `names`: as many as fit in the PDU. -/
def getNameList (names : ℤ → String → List String) (content : List UInt8) (maxPdu : ℕ) :
    Except Asn1.Error Element := do
  let (classContent, d) ← (new content).expect (contextConstructed 0)
  let (classOctets, _) ← (new classContent).expect (contextPrimitive 0)
  let cls ← decodeInt classOctets
  let (scope, d) ← d.optional (contextConstructed 1)
  let domain ← match scope with
    | some scope => do
      let (domain, _) ← (new scope).optional (contextPrimitive 1)
      pure ((domain.map fromUtf8Lossy).getD "")
    | none => pure ""
  let (after, _) ← d.optional (contextPrimitive 2)
  let after := (after.map fromUtf8Lossy).getD ""
  let (page, more) := fillPage ((namesAfter after (names cls domain)).map nameElement) maxPdu
  pure (nameListElement page more)

def nameListHandler (others : Request → Except HandlerError Element) (names : ℤ → String → List String)
    (maxPdu : ℕ) (req : Request) : Except HandlerError Element :=
  if req.service = svcGetNameList then (getNameList names req.content maxPdu).mapError fun _ => .other
  else others req

inductive CallError where
  | unanswered
  | service (e : ServiceError)
  | asn1 (e : Asn1.Error)
deriving DecidableEq

def scopeElement (domain : String) : Element :=
  if domain = "" then prim (contextPrimitive 0) [] else prim (contextPrimitive 1) (octets domain)

def afterElements (after : String) : List Element :=
  if after = "" then [] else [prim (contextPrimitive 2) (octets after)]

def nameListRequest (cls : ObjectClass) (domain after : String) : Element :=
  cons (contextConstructed svcGetNameList)
    (cons (contextConstructed 0) [intElem (contextPrimitive 0) cls.code] ::
      cons (contextConstructed 1) [scopeElement domain] :: afterElements after)

def parseNameList (resp : List UInt8) : Except Asn1.Error (List String × Bool) := do
  let (content, _) ← (new resp).expect (contextConstructed svcGetNameList)
  let (list, d) ← (new content).expect (contextConstructed 0)
  let names ← (new list).expectAll tagVisibleString (list.length + 1)
  let (mf, _) ← d.optional (contextPrimitive 1)
  -- moreFollows is true unless it says otherwise
  let more := match mf.map decodeBool with
    | some (.ok more) => more
    | _ => true
  pure (names.map fromUtf8Lossy, more)

def getNameListPage (request : Element → Option (Except ServiceError (List UInt8))) (cls : ObjectClass)
    (domain after : String) : Except CallError (List String × Bool) :=
  match request (nameListRequest cls domain after) with
  | none => .error .unanswered
  | some (.error e) => .error (.service e)
  | some (.ok resp) => (parseNameList resp).mapError .asn1

def fetchNames (handle : Request → Except HandlerError Element) (maxPdu : ℕ) (ids : ℕ → UInt32)
    (cls : ObjectClass) (domain : String) (fuel : ℕ) : Option (Except CallError (List String)) :=
  Paging.collect (fun n => getNameListPage (call handle maxPdu (ids n)) cls domain) id fuel 0 [] ""

variable {others : Request → Except HandlerError Element} {names : ℤ → String → List String} {maxPdu : ℕ}
  {cls : ObjectClass} {domain after : String} {id : UInt32} {more : Bool}

lemma nameElement_low (name : String) : (nameElement name).AllLow := prim_low (by decide) _

lemma nameListElement_low (ns : List String) (more : Bool) : (nameListElement (ns.map nameElement) more).AllLow :=
  cons_low (by decide) ⟨cons_low (by decide) (allLows_map nameElement_low ns), prim_low (by decide) _, trivial⟩

lemma parseNameList_encode {ns : List String} (h : (nameListElement (ns.map nameElement) more).Fits) :
    parseNameList (nameListElement (ns.map nameElement) more).encode = .ok (ns, more) := by
  have hps := h.parts
  have hlist : AllFit (ns.map nameElement) := hps.head.parts
  have htags : ∀ e ∈ ns.map nameElement, e.tag = tagVisibleString := by
    intro e he
    obtain ⟨n, -, rfl⟩ := mem_map.mp he
    rfl
  have hnames : (new (cons (contextConstructed 0) (ns.map nameElement)).content).expectAll tagVisibleString
      ((cons (contextConstructed 0) (ns.map nameElement)).content.length + 1) = .ok (ns.map octets) := by
    have hall : expectAll tagVisibleString _ ⟨0, encodeAll (ns.map nameElement)⟩ = _ :=
      expectAll_encodeAll hlist htags (Nat.lt_succ_self _)
    rw [map_map] at hall
    rw [length_content_cons hlist.low]
    exact hall
  have hrd : (ns.map octets).map fromUtf8Lossy = ns := by
    rw [map_map]
    conv_rhs => rw [← map_id ns]
    apply map_congr_left
    intro n _
    exact fromUtf8Lossy_octets n
  have hsvc := expect_new (t := contextConstructed svcGetNameList) h rfl
  have hpage : (new (nameListElement (ns.map nameElement) more).content).expect (contextConstructed 0) = _ :=
    expect_first hps.head rfl
  have hmo : optional (contextPrimitive 1)
      ⟨(cons (contextConstructed 0) (ns.map nameElement)).size,
        encodeAll [boolElem (contextPrimitive 1) more]⟩ = _ := optional_encode hps.tail.head rfl
  unfold parseNameList
  simp only [hsvc, hpage, hnames, hmo, bind, Except.bind, pure, Except.pure, hrd, Option.map_some,
    decodeBool_boolElem]

lemma namesAfter_append {pre post : List String} {last : String} (hnd : (pre ++ [last] ++ post).Nodup)
    (hne : last ≠ "") : namesAfter last (pre ++ [last] ++ post) = post := by
  have hnot : last ∉ pre := by
    intro hm
    rw [append_assoc, nodup_append] at hnd
    exact hnd.2.2 last hm last (by simp) rfl
  have hidx : (pre ++ [last] ++ post).findIdx? (· = last) = some pre.length := by
    rw [findIdx?_eq_some_iff_getElem]
    refine ⟨by simp, by simp, ?_⟩
    intro j hj
    have hj' : j < (pre ++ [last] ++ post).length := by
      simp only [length_append]
      omega
    have hget : (pre ++ [last] ++ post)[j] = pre[j] := by
      rw [getElem_append_left (by simp; omega), getElem_append_left hj]
    rw [hget]
    simp only [decide_eq_true_eq]
    rintro rfl
    exact hnot (getElem_mem hj)
  rw [namesAfter, if_neg hne, hidx]
  simp

lemma fromUtf8Lossy_optional (s : String) :
    ((if s = "" then none else some (octets s)).map fromUtf8Lossy).getD "" = s := by
  split
  · next h => exact h.symm
  · exact fromUtf8Lossy_octets s

lemma scopeElement_low (domain : String) : (scopeElement domain).AllLow := by
  unfold scopeElement
  split
  · exact prim_low (by decide) _
  · exact prim_low (by decide) _

lemma afterElements_low (after : String) : AllLows (afterElements after) := by
  unfold afterElements
  split
  · trivial
  · exact ⟨prim_low (by decide) _, trivial⟩

lemma nameListRequest_low (cls : ObjectClass) (domain after : String) : (nameListRequest cls domain after).AllLow :=
  cons_low (by decide) ⟨cons_low (by decide) ⟨intElem_low (by decide) _, trivial⟩,
    cons_low (by decide) ⟨scopeElement_low domain, trivial⟩, afterElements_low after⟩

lemma optional_scopeElement (off : ℕ) (h : (scopeElement domain).Fits) :
    ∃ d, optional (contextPrimitive 1) ⟨off, encodeAll [scopeElement domain]⟩ =
      .ok (if domain = "" then none else some (octets domain), d) := by
  have hone : encodeAll [scopeElement domain] = (scopeElement domain).encode ++ [] := rfl
  rw [hone]
  by_cases hdom : domain = ""
  · have htag : (scopeElement domain).tag ≠ contextPrimitive 1 := by
      rw [scopeElement, if_pos hdom]
      decide
    rw [optional_encode_ne h.low htag, if_pos hdom]
    exact ⟨_, rfl⟩
  have hscope : scopeElement domain = prim (contextPrimitive 1) (octets domain) := if_neg hdom
  rw [optional_encode h (by rw [hscope]; rfl), if_neg hdom, hscope]
  exact ⟨_, rfl⟩

lemma optional_afterElements (off : ℕ) (h : AllFit (afterElements after)) :
    ∃ d, optional (contextPrimitive 2) ⟨off, encodeAll (afterElements after)⟩ =
      .ok (if after = "" then none else some (octets after), d) := by
  by_cases haft : after = ""
  · rw [afterElements, if_pos haft, if_pos haft]
    exact ⟨_, rfl⟩
  rw [afterElements, if_neg haft] at h ⊢
  have hone : encodeAll [prim (contextPrimitive 2) (octets after)] =
      (prim (contextPrimitive 2) (octets after)).encode ++ [] := rfl
  rw [hone, optional_encode (t := contextPrimitive 2) h.head rfl, if_neg haft]
  exact ⟨_, rfl⟩

lemma getNameList_request (h : (nameListRequest cls domain after).Fits) :
    getNameList names (nameListRequest cls domain after).content maxPdu =
      .ok (nameListElement (fillPage ((namesAfter after (names cls.code.toInt domain)).map nameElement) maxPdu).1
        (fillPage ((namesAfter after (names cls.code.toInt domain)).map nameElement) maxPdu).2) := by
  have hps := h.parts
  -- What each read returns.
  have h1 : (new (nameListRequest cls domain after).content).expect (contextConstructed 0) = _ :=
    expect_first hps.head rfl
  have h2 : (new (cons (contextConstructed 0) [intElem (contextPrimitive 0) cls.code]).content).expect
      (contextPrimitive 0) = _ := expect_first hps.head.parts.head rfl
  have h3 : optional (contextConstructed 1)
      ⟨(cons (contextConstructed 0) [intElem (contextPrimitive 0) cls.code]).size,
        encodeAll (cons (contextConstructed 1) [scopeElement domain] :: afterElements after)⟩ = _ :=
    optional_encode hps.tail.head rfl
  obtain ⟨d4, h4⟩ := optional_scopeElement 0 hps.tail.head.parts.head
  obtain ⟨d5, h5⟩ := optional_afterElements
    ((cons (contextConstructed 0) [intElem (contextPrimitive 0) cls.code]).size +
      (cons (contextConstructed 1) [scopeElement domain]).size) hps.tail.tail
  unfold getNameList
  have hscopecontent : (cons (contextConstructed 1) [scopeElement domain]).content =
      encodeAll [scopeElement domain] := rfl
  have hnew : new (encodeAll [scopeElement domain]) = ⟨0, encodeAll [scopeElement domain]⟩ :=
    rfl
  simp only [h1, h2, h3, h4, h5, hscopecontent, hnew, decodeInt_intElem, bind, Except.bind, pure, Except.pure]
  rw [fromUtf8Lossy_optional, fromUtf8Lossy_optional]

/-- A page of some names, and what it says of those that follow, does not fit in a PDU. -/
def Oversized (maxPdu : ℕ) (id : UInt32) (page : List String) (more : Bool) : Prop :=
  0 < maxPdu ∧ maxPdu < (confirmedResponse id (nameListElement (page.map nameElement) more)).size

/-- No PDU of an exchange is longer than a length of four octets says. -/
structure Encodable (maxPdu : ℕ) (ids : ℕ → UInt32) (cls : ObjectClass) (domain : String)
    (held : List String) : Prop where
  request : ∀ n, ∀ after ∈ "" :: held, (confirmedRequest (ids n) (nameListRequest cls domain after)).size < 2 ^ 32
  limit : maxPdu < 2 ^ 32
  unlimited : maxPdu = 0 → sizes (held.map nameElement) + pageEnvelope < 2 ^ 32

variable {ids : ℕ → UInt32}

lemma namesAfter_eq_drop (after : String) (names : List String) : ∃ k, namesAfter after names = names.drop k := by
  unfold namesAfter
  split
  · exact ⟨0, rfl⟩
  split
  · next i _ => exact ⟨i + 1, rfl⟩
  · exact ⟨0, rfl⟩

lemma sizes_namesAfter_le (after : String) (names : List String) :
    sizes ((namesAfter after names).map nameElement) ≤ sizes (names.map nameElement) := by
  obtain ⟨k, hk⟩ := namesAfter_eq_drop after names
  have hsplit : sizes (names.map nameElement) =
      sizes ((names.take k).map nameElement) + sizes ((names.drop k).map nameElement) := by
    rw [← sizes_append, ← map_append, take_append_drop]
  rw [hk, hsplit]
  omega

lemma length_le_one_of_oversized {page : List String} (hfits : FitsPage maxPdu (page.map nameElement))
    (hover : Oversized maxPdu id page more) : page.length ≤ 1 := by
  have hsz : (confirmedResponse id (nameListElement (page.map nameElement) more)).size ≤ _ :=
    size_page_le (by decide) (allLows_map nameElement_low page) more
  obtain ⟨hpos, hbig⟩ := hover
  obtain hz | hone | hrm := hfits
  · omega
  · rwa [length_map] at hone
  rcases page with _ | ⟨name, page⟩
  · simp
  have hnm := length_content_lt (nameElement_low name)
  have hsum : sizes ((name :: page).map nameElement) = (nameElement name).size + sizes (page.map nameElement) := rfl
  unfold pageEnvelope at hrm
  omega

lemma getNameListPage_eq (others : Request → Except HandlerError Element)
    (henc : Encodable maxPdu ids cls domain (names cls.code.toInt domain)) (n : ℕ)
    (haft : after ∈ "" :: names cls.code.toInt domain) :
    ∃ page rest, namesAfter after (names cls.code.toInt domain) = page ++ rest ∧ (rest ≠ [] → page ≠ []) ∧
      ((getNameListPage (call (nameListHandler others names maxPdu) maxPdu (ids n)) cls domain after =
          .ok (page, decide (rest ≠ []))) ∨
        getNameListPage (call (nameListHandler others names maxPdu) maxPdu (ids n)) cls domain after =
          .error (.service resourceError) ∧
        page.length ≤ 1 ∧ Oversized maxPdu (ids n) page (decide (rest ≠ []))) := by
  obtain ⟨pageEls, restEls, hcut, hfill, hfits, hne⟩ :=
    fillPage_spec ((namesAfter after (names cls.code.toInt domain)).map nameElement) maxPdu
  obtain ⟨page, rest, hleft, rfl, rfl⟩ := map_eq_append_iff.mp hcut
  simp only [ne_eq, map_eq_nil_iff] at hfill hne
  have hreq : (confirmedRequest (ids n) (nameListRequest cls domain after)).Fits :=
    ⟨confirmedRequest_low (nameListRequest_low cls domain after), henc.request n after haft⟩
  have hhandle : nameListHandler others names maxPdu
      ⟨ids n, (nameListRequest cls domain after).tag.number, (nameListRequest cls domain after).content⟩ =
        .ok (nameListElement (page.map nameElement) (decide (rest ≠ []))) := by
    unfold nameListHandler
    rw [if_pos (by rfl), getNameList_request (fits_service hreq), hfill]
    rfl
  have hsz : (confirmedResponse (ids n) (nameListElement (page.map nameElement) (decide (rest ≠ [])))).size ≤ _ :=
    size_page_le (by decide) (allLows_map nameElement_low page) _
  have hbound : maxPdu = 0 ∨
      (confirmedResponse (ids n) (nameListElement (page.map nameElement) (decide (rest ≠ [])))).size ≤ maxPdu →
        (confirmedResponse (ids n) (nameListElement (page.map nameElement) (decide (rest ≠ [])))).size < 2 ^ 32 := by
    rintro (hz | hle)
    · -- Without a limit, the page has all names that are left.
      have hall : _ + 32 < _ := henc.unlimited hz
      have hsub := sizes_namesAfter_le after (names cls.code.toInt domain)
      rw [hleft, map_append, sizes_append] at hsub
      omega
    · exact lt_of_le_of_lt hle henc.limit
  refine ⟨page, rest, hleft, fun h => (hne h).1, ?_⟩
  unfold getNameListPage
  obtain ⟨hover, hcall⟩ | ⟨hfit, hcall⟩ := call_cases hreq hhandle (nameListElement_low page _) hbound
  · rw [hcall]
    exact .inr ⟨rfl, length_le_one_of_oversized hfits hover, hover⟩
  left
  rw [hcall]
  dsimp only
  rw [parseNameList_encode hfit]
  rfl

/-- The client fetches exactly the server's names, in order, or a page of at most one name does not fit in a
PDU and it gets a resource error. -/
theorem names_fetched (others : Request → Except HandlerError Element) (names : ℤ → String → List String)
    (maxPdu : ℕ) (ids : ℕ → UInt32) (cls : ObjectClass) (domain : String)
    (hdistinct : (names cls.code.toInt domain).Nodup) (hnonempty : "" ∉ names cls.code.toInt domain)
    (henc : Encodable maxPdu ids cls domain (names cls.code.toInt domain)) :
    fetchNames (nameListHandler others names maxPdu) maxPdu ids cls domain
        ((names cls.code.toInt domain).length + 1) = some (.ok (names cls.code.toInt domain)) ∨
      fetchNames (nameListHandler others names maxPdu) maxPdu ids cls domain
          ((names cls.code.toInt domain).length + 1) = some (.error (.service resourceError)) ∧
        ∃ n page more, page.length ≤ 1 ∧ page ⊆ names cls.code.toInt domain ∧ Oversized maxPdu (ids n) page more := by
  have hres : (∃ e, fetchNames (nameListHandler others names maxPdu) maxPdu ids cls domain
      ((names cls.code.toInt domain).length + 1) = some (.error e) ∧ e = .service resourceError ∧
        ∃ n page more, page.length ≤ 1 ∧ page ⊆ names cls.code.toInt domain ∧ Oversized maxPdu (ids n) page more) ∨
      fetchNames (nameListHandler others names maxPdu) maxPdu ids cls domain
        ((names cls.code.toInt domain).length + 1) = some (.ok (names cls.code.toInt domain)) := by
    -- What is left to fetch are the names after the place reached.
    refine Paging.collect_list
      (fun _ left place => namesAfter place (names cls.code.toInt domain) = left ∧
        place ∈ "" :: names cls.code.toInt domain)
      ?_ (nil_append _) ⟨if_pos rfl, mem_cons_self⟩ (Nat.lt_succ_self _)
    rintro n got left place hall ⟨rfl, hplace⟩
    obtain ⟨page, rest, hcut, hne, hok | ⟨herror, hone, hover⟩⟩ := getNameListPage_eq others henc n hplace
    · by_cases hrs : rest = []
      · right; left
        rw [hok, hcut, hrs]
        simp
      right; right
      obtain ⟨batch, last, rfl⟩ : ∃ batch last, page = batch ++ [last] :=
        ⟨page.dropLast, page.getLast (hne hrs), (dropLast_append_getLast (hne hrs)).symm⟩
      have hheld : names cls.code.toInt domain = got ++ batch ++ [last] ++ rest := by
        rw [← hall, hcut]
        simp
      have hm : last ∈ names cls.code.toInt domain := by
        rw [hheld]
        simp
      refine ⟨batch, last, rest, ?_, hcut, ?_, mem_cons_of_mem _ hm⟩
      · rw [hok, decide_eq_true hrs]
      show namesAfter last _ = rest
      rw [hheld] at hdistinct ⊢
      exact namesAfter_append hdistinct (fun h => hnonempty (h ▸ hm))
    · left
      refine ⟨_, herror, rfl, n, page, _, hone, ?_, hover⟩
      intro name hnm
      rw [← hall, hcut]
      simp [hnm]
  obtain ⟨e, herror, rfl, hover⟩ | hok := hres
  · exact .inr ⟨herror, hover⟩
  · exact .inl hok

def threeNames : List String := ["LLN0", "LPHD1", "XCBR1$ST$Pos"]

/-- Three names of which a PDU of 60 octets takes two. -/
theorem three_names_fetched :
    let result := fetchNames (nameListHandler (fun _ => .error .other) (fun _ _ => threeNames) 60) 60 (fun _ => 1)
      .namedVariable "IED1LD0" 4
    result = some (.ok threeNames) ∨ result = some (.error (.service resourceError)) ∧
      ∃ (_ : ℕ) (page : List String) (more : Bool), page.length ≤ 1 ∧ page ⊆ threeNames ∧ Oversized 60 1 page more :=
  names_fetched (fun _ => .error .other) (fun _ _ => threeNames) 60 (fun _ => 1)
    .namedVariable "IED1LD0" (by decide) (by decide)
    { request := fun _ => by decide +kernel
      limit := by decide
      unlimited := by decide }

/-- A name that does not fit in a PDU keeps the list from being fetched. -/
theorem long_name_not_fetched : ¬ ∃ fuel, fetchNames (nameListHandler (fun _ => .error .other)
      (fun _ _ => ["LLN0$BR$brcbMeasurements01$OptFlds"]) 40) 40 (fun _ => 1) .namedVariable "IED1LD0" fuel =
        some (.ok ["LLN0$BR$brcbMeasurements01$OptFlds"]) := by
  rintro ⟨fuel, h⟩
  have hpage : getNameListPage (call (nameListHandler (fun _ => .error .other)
      (fun _ _ => ["LLN0$BR$brcbMeasurements01$OptFlds"]) 40) 40 1) .namedVariable "IED1LD0" "" =
        .error (.service resourceError) := by decide +kernel
  cases fuel with
  | zero => cases h
  | succ fuel =>
    rw [fetchNames, Paging.collect_error hpage] at h
    cases h

end Iec61850.Mms
