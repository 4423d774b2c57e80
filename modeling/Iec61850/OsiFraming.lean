import Iec61850.Sequences
import Iec61850.Outcome
import Iec61850.MmsDecode

/-! The transport beneath MMS, and what frames an MMS PDU in the data phase. -/
namespace Iec61850.Osi
open Asn1 List

inductive OsiError where
  /-- The stream ends in the middle. -/
  | io
  | asn1 (e : Asn1.Error)
  | tpkt (text : String)
  | cotp (text : String)
  | session (text : String)
  | presentation (text : String)
  | acse (text : String)
  | closed
  | aborted (userData : List UInt8)
deriving DecidableEq

def be16 (n : ℕ) : List UInt8 := [UInt8.ofNat (n / 256), UInt8.ofNat n]

namespace Tpkt

def headerLen : ℕ := 4
def version : UInt8 := 3

def maxPacket : ℕ := 2 ^ 20

def writePacket (payload : List UInt8) : Except OsiError (List UInt8) :=
  let total := headerLen + payload.length
  if maxPacket < total then
    .error (.tpkt ("packet of " ++ toString total ++ " bytes exceeds max " ++ toString maxPacket))
  else .ok (version :: 0 :: (be16 total ++ payload))

def totalOf (hdr : List UInt8) : ℕ := (hdr.getD 2 0).toNat * 256 + (hdr.getD 3 0).toNat

def readPayload (total : ℕ) (s : Chunks UInt8) : Except OsiError (List UInt8 × Chunks UInt8) :=
  if total < headerLen ∨ maxPacket < total then .error (.tpkt ("bad length " ++ toString total))
  else
    match s.readExact (total - headerLen) with
    | none => .error .io
    | some (payload, s) => .ok (payload, s)

def readPacket (s : Chunks UInt8) : Except OsiError (List UInt8 × Chunks UInt8) :=
  match s.readExact headerLen with
  | none => .error .io
  | some (hdr, s) =>
    if hdr.getD 0 0 ≠ version then .error (.tpkt ("bad version " ++ toString (hdr.getD 0 0).toNat))
    else readPayload (totalOf hdr) s

lemma be16_toNat (n : ℕ) : (UInt8.ofNat (n / 256)).toNat * 256 + (UInt8.ofNat n).toNat = n % 2 ^ 16 := by
  rw [UInt8.toNat_ofNat', UInt8.toNat_ofNat']
  omega

variable {octets payload : List UInt8}

lemma writePacket_ok (h : writePacket payload = .ok octets) : headerLen + payload.length ≤ maxPacket ∧
      octets = version :: 0 :: (be16 (headerLen + payload.length) ++ payload) := by
  rw [writePacket] at h
  split at h
  · cases h
  · next hle => exact ⟨Nat.not_lt.mp hle, (Except.ok.inj h).symm⟩

lemma readPacket_written {rest : List UInt8} {s : Chunks UInt8} {total : ℕ}
    (hw : writePacket payload = .ok octets) (hs : s.left = octets ++ rest)
    (htotal : total = (headerLen + payload.length) % 2 ^ 16) : (total < headerLen → ∃ e, readPacket s = .error e) ∧
      (headerLen ≤ total → ∃ s', readPacket s = .ok (payload.take (total - headerLen), s') ∧
        s'.left = payload.drop (total - headerLen) ++ rest) := by
  obtain ⟨hmax, rfl⟩ := writePacket_ok hw
  obtain ⟨s₁, hrd, hleft⟩ : ∃ s', s.readExact headerLen = some (s.left.take headerLen, s') ∧ _ := by
    apply Chunks.readExact_of_le
    rw [hs]
    simp [be16, headerLen]
  rw [hs] at hrd hleft
  have hpayload : readPacket s = readPayload total s₁ := by
    have hlen : totalOf (take headerLen (version :: 0 :: (be16 (headerLen + payload.length) ++ payload) ++ rest)) =
        total := by
      rw [htotal, ← be16_toNat]
      rfl
    rw [readPacket, hrd]
    dsimp only
    rw [hlen]
    exact if_neg (not_not.mpr rfl)
  refine ⟨fun hlt => ?_, fun hge => ?_⟩
  · rw [hpayload, readPayload, if_pos (.inl hlt)]
    exact ⟨_, rfl⟩
  have hrs : s₁.left = payload ++ rest := hleft
  obtain ⟨s2, hread2, hleft2⟩ : ∃ s', s₁.readExact (total - headerLen) = some (s₁.left.take (total - headerLen), s') ∧ _ := by
    apply Chunks.readExact_of_le
    rw [hrs, length_append]
    omega
  rw [hrs] at hread2 hleft2
  have hsh : total - headerLen ≤ payload.length := by omega
  refine ⟨s2, ?_, ?_⟩
  · rw [hpayload, readPayload, if_neg (by omega), hread2, take_append_of_le_length hsh]
  · rw [hleft2, drop_append_of_le_length hsh]

end Tpkt

namespace Cotp

def tpduCr : UInt8 := 0xe0
def tpduCc : UInt8 := 0xd0
def tpduDr : UInt8 := 0x80
def tpduDt : UInt8 := 0xf0
def tpduEr : UInt8 := 0x70

def paramTpduSize : UInt8 := 0xc0
def paramSrcTsap : UInt8 := 0xc1
def paramDstTsap : UInt8 := 0xc2

def eot : UInt8 := 0x80

def hex (b : UInt8) : String :=
  String.ofList [Nat.digitChar (b.toNat / 16), Nat.digitChar (b.toNat % 16)]

def parseHeader (tpdu : List UInt8) : Except OsiError (ℕ × UInt8 × List UInt8) :=
  if tpdu.length < 2 then .error (.cotp "truncated TPDU")
  else
    let li := (tpdu.getD 0 0).toNat
    if li = 0 ∨ tpdu.length < 1 + li then
      .error (.cotp ("bad LI " ++ toString li ++ " (len " ++ toString tpdu.length ++ ")"))
    else .ok (li, tpdu.getD 1 0 &&& 0xf0, (tpdu.take (1 + li)).drop 2)

structure Conn where
  maxTpdu : ℕ
  srcRef : ℕ := 1
  dstRef : ℕ := 0
  srcTsap : List UInt8 := []
  dstTsap : List UInt8 := []
deriving DecidableEq

def writeParam (code : UInt8) (val : List UInt8) : List UInt8 := code :: UInt8.ofNat val.length :: val

def handshakeTpdu (body : List UInt8) : List UInt8 := UInt8.ofNat body.length :: body

def crTpdu (c : Conn) (sizeCode : UInt8) : List UInt8 :=
  handshakeTpdu (tpduCr :: (be16 0 ++ be16 c.srcRef ++ [0] ++ writeParam paramTpduSize [sizeCode] ++
    writeParam paramSrcTsap c.srcTsap ++ writeParam paramDstTsap c.dstTsap))

def ccTpdu (c : Conn) (sizeCode : UInt8) : List UInt8 :=
  handshakeTpdu (tpduCc :: (be16 c.dstRef ++ be16 c.srcRef ++ [0] ++ writeParam paramTpduSize [sizeCode] ++
    (if c.srcTsap.isEmpty then [] else writeParam paramSrcTsap c.srcTsap) ++
    (if c.dstTsap.isEmpty then [] else writeParam paramDstTsap c.dstTsap)))

def foldParams {σ : Type} (f : σ → UInt8 → List UInt8 → σ) : (fuel : ℕ) → List UInt8 → σ → σ
  | fuel + 1, code :: plen :: rest, st =>
    if rest.length < plen.toNat then st
    else foldParams f fuel (rest.drop plen.toNat) (f st code (rest.take plen.toNat))
  | _, _, st => st

def sizeOf (code : UInt8) : ℕ := 2 ^ min code.toNat 24

def acceptParam (st : UInt8 × Conn) (code : UInt8) (val : List UInt8) : UInt8 × Conn :=
  if code = paramTpduSize ∧ val.length = 1 then (val.headD 0, { st.2 with maxTpdu := sizeOf (val.headD 0) })
  else if code = paramSrcTsap then (st.1, { st.2 with dstTsap := val })
  else if code = paramDstTsap then (st.1, { st.2 with srcTsap := val })
  else st

def connectParam (c : Conn) (code : UInt8) (val : List UInt8) : Conn :=
  if code = paramTpduSize ∧ val.length = 1 ∧ sizeOf (val.headD 0) < c.maxTpdu then
    { c with maxTpdu := sizeOf (val.headD 0) }
  else c

def refOf (body : List UInt8) : ℕ := (body.getD 2 0).toNat * 256 + (body.getD 3 0).toNat

/-- The handshake of the called side, with what it writes. -/
def accept (s : Chunks UInt8) : Except OsiError (Conn × List UInt8 × Chunks UInt8) :=
  match Tpkt.readPacket s with
  | .error e => .error e
  | .ok (tpdu, s) =>
    match parseHeader tpdu with
    | .error e => .error e
    | .ok (_, typ, body) =>
      if typ ≠ tpduCr then .error (.cotp ("expected CR, got type 0x" ++ hex typ))
      else
        let c : Conn := { maxTpdu := 1024, dstRef := if 4 ≤ body.length then refOf body else 0 }
        let st := foldParams acceptParam body.length (body.drop 5) (10, c)
        match Tpkt.writePacket (ccTpdu st.2 st.1) with
        | .error e => .error e
        | .ok octets => .ok (st.2, octets, s)

/-- What a calling side asks for; a code of zero asks for 1024 octets. -/
structure Options where
  srcTsap : List UInt8 := [0, 1]
  dstTsap : List UInt8 := [0, 1]
  tpduSizeCode : UInt8 := 10

def recvCc (c : Conn) (s : Chunks UInt8) : Except OsiError (Conn × Chunks UInt8) :=
  match Tpkt.readPacket s with
  | .error e => .error e
  | .ok (tpdu, s) =>
    match parseHeader tpdu with
    | .error e => .error e
    | .ok (_, typ, body) =>
      if typ ≠ tpduCc then
        if typ = tpduDr then .error (.cotp "connection refused (DR)")
        else .error (.cotp ("expected CC, got type 0x" ++ hex typ))
      else if body.length < 5 then .error (.cotp "short CC")
      else .ok (foldParams connectParam body.length (body.drop 5) { c with dstRef := refOf body }, s)

/-- The handshake of the calling side, with what it writes. A size of 64 bits or more cannot be shifted to. -/
def connect (opts : Options) (s : Chunks UInt8) : Outcome OsiError (Conn × List UInt8 × Chunks UInt8) :=
  let sizeCode := if opts.tpduSizeCode = 0 then 10 else opts.tpduSizeCode
  if 64 ≤ sizeCode.toNat then .panic
  else
    let c : Conn := { maxTpdu := 2 ^ sizeCode.toNat, srcTsap := opts.srcTsap, dstTsap := opts.dstTsap }
    match Tpkt.writePacket (crTpdu c sizeCode) with
    | .error e => .error e
    | .ok octets =>
      match recvCc c s with
      | .error e => .error e
      | .ok (c, s) => .ok (c, octets, s)

def dt (last : Bool) (data : List UInt8) : List UInt8 := 2 :: tpduDt :: (if last then eot else 0) :: data

def maxData (maxTpdu : ℕ) : ℕ := max (maxTpdu - 3) 1

def segments (room : ℕ) : (fuel : ℕ) → List UInt8 → List (List UInt8)
  | 0, _ => []
  | fuel + 1, tsdu =>
    if tsdu.length ≤ room then [dt true tsdu]
    else dt false (tsdu.take room) :: segments room fuel (tsdu.drop room)

def tpdus (maxTpdu : ℕ) (tsdu : List UInt8) : List (List UInt8) := segments (maxData maxTpdu) (tsdu.length + 1) tsdu

def send (maxTpdu : ℕ) (tsdu : List UInt8) : Except OsiError (List UInt8) :=
  ((tpdus maxTpdu tsdu).mapM Tpkt.writePacket).map List.flatten

/-- Reads TPDUs up to the last of a unit. More `fuel` than octets is enough. -/
def receiveLoop : (fuel : ℕ) → (buf : List UInt8) → Chunks UInt8 → Except OsiError (List UInt8 × Chunks UInt8)
  | 0, _, _ => .error .io
  | fuel + 1, buf, s =>
    match Tpkt.readPacket s with
    | .error e => .error e
    | .ok (tpdu, s) =>
      match parseHeader tpdu with
      | .error e => .error e
      | .ok (li, typ, body) =>
        if typ = tpduDt then
          match body with
          | [] => .error (.cotp "short DT")
          | num :: _ =>
            let buf := buf ++ tpdu.drop (1 + li)
            if num &&& eot ≠ 0 then .ok (buf, s) else receiveLoop fuel buf s
        else if typ = tpduDr then .error .closed
        else if typ = tpduEr then .error (.cotp "received ER TPDU")
        else .error (.cotp ("unexpected TPDU type 0x" ++ hex typ))

def receive (s : Chunks UInt8) : Except OsiError (List UInt8 × Chunks UInt8) :=
  receiveLoop (s.left.length + 1) [] s

lemma foldParams_induction {σ : Type} {f : σ → UInt8 → List UInt8 → σ} (P : σ → Prop)
    (hf : ∀ st code val, P st → P (f st code val)) {fuel : ℕ} {params : List UInt8} {st : σ} (h : P st) :
    P (foldParams f fuel params st) := by
  induction fuel, params, st using foldParams.induct f with
  | case1 fuel code plen rest st hlt =>
    rw [foldParams, if_pos hlt]
    exact h
  | case2 fuel code plen rest st hlt ih =>
    rw [foldParams, if_neg hlt]
    exact ih (hf _ _ _ h)
  | case3 fuel params st hnot =>
    rw [foldParams]
    · exact h
    · exact hnot

/-- A connection whose size came out of a handshake, as the called or the calling side. -/
def Negotiated (c : Conn) : Prop :=
  (∃ s octets s', accept s = .ok (c, octets, s')) ∨ ∃ opts s octets s', connect opts s = .ok (c, octets, s')

variable {code : UInt8} {val : List UInt8} {c : Conn} {s s' : Chunks UInt8}

lemma maxTpdu_acceptParam {st : UInt8 × Conn} (h : ∃ k, st.2.maxTpdu = 2 ^ k) :
    ∃ k, (acceptParam st code val).2.maxTpdu = 2 ^ k := by
  rw [acceptParam]
  split_ifs
  · exact ⟨_, rfl⟩
  · exact h
  · exact h
  · exact h

lemma maxTpdu_connectParam (h : ∃ k, c.maxTpdu = 2 ^ k) : ∃ k, (connectParam c code val).maxTpdu = 2 ^ k := by
  rw [connectParam]
  split_ifs
  · exact ⟨_, rfl⟩
  · exact h

lemma maxTpdu_accept {octets : List UInt8} (h : accept s = .ok (c, octets, s')) : ∃ k, c.maxTpdu = 2 ^ k := by
  rw [accept] at h
  split at h
  · cases h
  split at h
  · cases h
  split at h
  · cases h
  dsimp only at h
  split at h
  · cases h
  cases h
  apply foldParams_induction fun st : UInt8 × Conn => ∃ k, st.2.maxTpdu = 2 ^ k
  · intro st code val hst
    exact maxTpdu_acceptParam hst
  · exact ⟨10, rfl⟩

lemma maxTpdu_recvCc {c' : Conn} (h : recvCc c s = .ok (c', s'))
    (hpow : ∃ k, c.maxTpdu = 2 ^ k) : ∃ k, c'.maxTpdu = 2 ^ k := by
  rw [recvCc] at h
  split at h
  · cases h
  split at h
  · cases h
  split at h
  · split at h <;> cases h
  split at h
  · cases h
  cases h
  apply foldParams_induction fun st : Conn => ∃ k, st.maxTpdu = 2 ^ k
  · intro st code val hst
    exact maxTpdu_connectParam hst
  · exact hpow

lemma Negotiated.pow (h : Negotiated c) : ∃ k, c.maxTpdu = 2 ^ k := by
  rcases h with ⟨s, octets, s', haccept⟩ | ⟨opts, s, octets, s', hconn⟩
  · exact maxTpdu_accept haccept
  rw [connect] at hconn
  generalize (if opts.tpduSizeCode = 0 then 10 else opts.tpduSizeCode) = sizeCode at hconn
  dsimp only at hconn
  split at hconn
  · cases hconn
  split at hconn
  · cases hconn
  split at hconn
  · cases hconn
  next hcc =>
    cases hconn
    exact maxTpdu_recvCc hcc ⟨_, rfl⟩

variable {room fuel : ℕ} {tsdu data octets rest buf : List UInt8}

lemma length_dt (last : Bool) (data : List UInt8) : (dt last data).length = data.length + 3 := rfl

variable {tpdu : List UInt8} {frames : List (List UInt8)}

lemma length_segments (h : tpdu ∈ segments room fuel tsdu) : tpdu.length ≤ room + 3 := by
  induction fuel generalizing tsdu with
  | zero => cases h
  | succ fuel ih =>
    rw [segments] at h
    split at h
    next hls =>
      rw [mem_singleton.mp h, length_dt]
      omega
    · rcases mem_cons.mp h with rfl | h
      · rw [length_dt, length_take]
        omega
      · exact ih h

variable {maxTpdu : ℕ}

lemma length_tpdus (h : tpdu ∈ tpdus maxTpdu tsdu) (hdata : 4 < tpdu.length) : tpdu.length ≤ maxTpdu := by
  have hle := length_segments h
  rw [maxData] at hle
  omega

lemma parseHeader_dt_take (last : Bool) (data : List UInt8) (n : ℕ) :
    (n < 3 ∧ ∃ e, parseHeader ((dt last data).take n) = .error e) ∨
      (3 ≤ n ∧ parseHeader ((dt last data).take n) = .ok (2, tpduDt, [if last then eot else 0]) ∧
        ((dt last data).take n).drop 3 = data.take (n - 3)) := by
  match n with
  | 0 => exact .inl ⟨by decide, _, rfl⟩
  | 1 => exact .inl ⟨by decide, _, rfl⟩
  | 2 => exact .inl ⟨by decide, _, rfl⟩
  | n + 3 =>
    right
    refine ⟨by omega, ?_, rfl⟩
    change parseHeader (2 :: tpduDt :: (if last then eot else 0) :: data.take n) = _
    rw [parseHeader, if_neg (by simp)]
    simp [tpduDt]

lemma receiveLoop_dt {last : Bool} (n : ℕ) (buf : List UInt8) (hw : Tpkt.writePacket (dt last data) = .ok octets)
    (hs : s.left = octets ++ rest) (hlen : data.length + 7 < 2 ^ 16) :
    ∃ s', s'.left = rest ∧ receiveLoop (n + 1) buf s =
      if last then .ok (buf ++ data, s') else receiveLoop n (buf ++ data) s' := by
  have htotal : data.length + 7 = (Tpkt.headerLen + (dt last data).length) % 2 ^ 16 := by
    rw [length_dt, Tpkt.headerLen]
    omega
  obtain ⟨s', hrd, hleft⟩ := (Tpkt.readPacket_written hw hs htotal).2 (by rw [Tpkt.headerLen]; omega)
  have hall : (dt last data).length ≤ data.length + 7 - Tpkt.headerLen := by
    rw [length_dt, Tpkt.headerLen]
    omega
  rw [take_of_length_le hall] at hrd
  rw [drop_of_length_le hall, nil_append] at hleft
  refine ⟨s', hleft, ?_⟩
  have hheader : parseHeader (dt last data) = .ok (2, tpduDt, [if last then eot else 0]) := by
    rcases parseHeader_dt_take last data (dt last data).length with ⟨hlt, -⟩ | ⟨-, hok, -⟩
    · rw [length_dt] at hlt
      omega
    · rwa [take_length] at hok
  rw [receiveLoop, hrd]
  dsimp only
  rw [hheader]
  dsimp only
  rw [if_pos rfl]
  cases last with
  | true => exact if_pos (by decide)
  | false => exact if_neg (by decide)

lemma mapM_writePacket_cons {tpdus : List (List UInt8)} (h : (tpdu :: tpdus).mapM Tpkt.writePacket = .ok frames) :
    ∃ frame rest, Tpkt.writePacket tpdu = .ok frame ∧ tpdus.mapM Tpkt.writePacket = .ok rest ∧
      frames = frame :: rest := by
  rw [mapM_cons] at h
  rcases hfr : Tpkt.writePacket tpdu with e | frame
  · rw [hfr] at h
    cases h
  rw [hfr] at h
  rcases hrs : tpdus.mapM Tpkt.writePacket with e | rest
  · rw [hrs] at h
    cases h
  rw [hrs] at h
  cases h
  exact ⟨frame, rest, rfl, rfl, rfl⟩

lemma length_writePacket {payload frame : List UInt8} (h : Tpkt.writePacket payload = .ok frame) :
    frame.length = payload.length + 4 := by
  obtain ⟨-, rfl⟩ := Tpkt.writePacket_ok h
  simp [be16]

lemma receiveLoop_segments {n : ℕ} (hfuel : tsdu.length < fuel) (hrm : 0 < room)
    (hsh : min room tsdu.length + 7 < 2 ^ 16)
    (hfrs : (segments room fuel tsdu).mapM Tpkt.writePacket = .ok frames)
    (hs : s.left = frames.flatten ++ rest) (hn : frames.flatten.length ≤ n) :
    ∃ s', s'.left = rest ∧ receiveLoop n buf s = .ok (buf ++ tsdu, s') := by
  induction fuel generalizing tsdu frames s buf n with
  | zero => omega
  | succ fuel ih =>
    rw [segments] at hfrs
    split at hfrs
    next hls =>
      obtain ⟨frame, others, hfr, hoths, rfl⟩ := mapM_writePacket_cons hfrs
      rw [mapM_nil] at hoths
      cases hoths
      rw [flatten_singleton] at hs hn
      have hlen := length_writePacket hfr
      obtain ⟨n, rfl⟩ : ∃ m, n = m + 1 := ⟨n - 1, by rw [length_dt] at hlen; omega⟩
      obtain ⟨s', hleft, heq⟩ := receiveLoop_dt n buf hfr hs (by omega)
      exact ⟨s', hleft, heq⟩
    next hmo =>
      obtain ⟨frame, others, hfr, hoths, rfl⟩ := mapM_writePacket_cons hfrs
      rw [flatten_cons, append_assoc] at hs
      rw [flatten_cons, length_append] at hn
      have hlen := length_writePacket hfr
      have hdata : (tsdu.take room).length = room := by
        rw [length_take]
        omega
      obtain ⟨n, rfl⟩ : ∃ m, n = m + 1 := ⟨n - 1, by rw [length_dt] at hlen; omega⟩
      obtain ⟨s₁, hleft, heq⟩ := receiveLoop_dt n buf hfr hs (by omega)
      have hdrop : (tsdu.drop room).length = tsdu.length - room := length_drop
      obtain ⟨s', hleft', heq'⟩ : ∃ s', s'.left = rest ∧
          receiveLoop n (buf ++ tsdu.take room) s₁ = .ok (buf ++ tsdu.take room ++ tsdu.drop room, s') :=
        ih (by omega) (by omega) hoths hleft (by rw [length_dt] at hlen; omega)
      refine ⟨s', hleft', ?_⟩
      rw [heq]
      change receiveLoop n (buf ++ tsdu.take room) s₁ = _
      rw [heq', append_assoc, take_append_drop]

lemma mapM_segments (hfuel : tsdu.length < fuel) (hrm : 0 < room) (hmax : min room tsdu.length + 7 ≤ Tpkt.maxPacket) :
    ∃ frames, (segments room fuel tsdu).mapM Tpkt.writePacket = .ok frames := by
  have hwrite (last : Bool) (data : List UInt8) (hdata : data.length + 7 ≤ Tpkt.maxPacket) :
      ∃ frame, Tpkt.writePacket (dt last data) = .ok frame := by
    rw [Tpkt.writePacket, length_dt, if_neg (by rw [Tpkt.headerLen]; omega)]
    exact ⟨_, rfl⟩
  induction fuel generalizing tsdu with
  | zero => omega
  | succ fuel ih =>
    rw [segments]
    split
    next hls =>
      obtain ⟨frame, hfr⟩ := hwrite true tsdu (by omega)
      rw [mapM_cons, hfr]
      exact ⟨[frame], rfl⟩
    next hmo =>
    have hdrop : (tsdu.drop room).length = tsdu.length - room := length_drop
    have htake : (tsdu.take room).length = room := by
      rw [length_take]
      omega
    obtain ⟨frame, hfr⟩ := hwrite false (tsdu.take room) (by omega)
    have hlt : (tsdu.drop room).length < fuel := by omega
    obtain ⟨frames, hfrs⟩ := ih hlt (by omega)
    rw [mapM_cons, hfr, hfrs]
    exact ⟨frame :: frames, rfl⟩

lemma send_eq_ok (h : send maxTpdu tsdu = .ok octets) :
    ∃ frames, (tpdus maxTpdu tsdu).mapM Tpkt.writePacket = .ok frames ∧ octets = frames.flatten := by
  rw [send] at h
  rcases hfrs : (tpdus maxTpdu tsdu).mapM Tpkt.writePacket with e | frames
  · rw [hfrs] at h
    cases h
  rw [hfrs] at h
  cases h
  exact ⟨frames, rfl, rfl⟩

lemma maxData_pos (maxTpdu : ℕ) : 0 < maxData maxTpdu := by
  rw [maxData]
  omega

lemma receive_send (hsh : min (maxData maxTpdu) tsdu.length + 7 < 2 ^ 16) :
    ∃ octets, send maxTpdu tsdu = .ok octets ∧
      ∀ (s : Chunks UInt8) rest, s.left = octets ++ rest → ∃ s', s'.left = rest ∧ receive s = .ok (tsdu, s') := by
  have hmax : min (maxData maxTpdu) tsdu.length + 7 ≤ Tpkt.maxPacket := by
    rw [Tpkt.maxPacket]
    omega
  obtain ⟨frames, hfrs⟩ := mapM_segments (Nat.lt_succ_self tsdu.length) (maxData_pos maxTpdu) hmax
  refine ⟨frames.flatten, ?_, ?_⟩
  · rw [send, tpdus, hfrs]
    rfl
  intro s rest hs
  have hn : frames.flatten.length ≤ s.left.length + 1 := by
    rw [hs, length_append]
    omega
  exact receiveLoop_segments (Nat.lt_succ_self tsdu.length) (maxData_pos maxTpdu) hsh hfrs hs hn

lemma receive_cut {k : ℕ} {tsdu' : List UInt8} (hpow : maxTpdu = 2 ^ k)
    (hlong : 2 ^ 16 ≤ min (maxData maxTpdu) tsdu.length + 7) (hsend : send maxTpdu tsdu = .ok octets)
    (hs : s.left = octets) (hrcv : receive s = .ok (tsdu', s')) : s'.left ≠ [] := by
  obtain ⟨frames, hfrs, rfl⟩ := send_eq_ok hsend
  rw [tpdus, segments] at hfrs
  rw [receive, receiveLoop] at hrcv
  split at hfrs
  next hls =>
    obtain ⟨frame, others, hfr, hoths, rfl⟩ := mapM_writePacket_cons hfrs
    rw [mapM_nil] at hoths
    cases hoths
    rw [flatten_singleton, ← append_nil frame] at hs
    generalize htotal : (Tpkt.headerLen + (dt true tsdu).length) % 2 ^ 16 = total
    have hrd := Tpkt.readPacket_written hfr hs htotal.symm
    rcases Nat.lt_or_ge total Tpkt.headerLen with hlt | hge
    · obtain ⟨e, he⟩ := hrd.1 hlt
      rw [he] at hrcv
      cases hrcv
    obtain ⟨s₁, hrd, hleft⟩ := hrd.2 hge
    rw [hrd] at hrcv
    dsimp only at hrcv
    rcases parseHeader_dt_take true tsdu (total - Tpkt.headerLen) with ⟨-, e, he⟩ | ⟨-, hok, -⟩
    · rw [he] at hrcv
      cases hrcv
    rw [hok] at hrcv
    dsimp only at hrcv
    rw [if_pos rfl, if_pos (by decide)] at hrcv
    cases hrcv
    rw [hleft, append_nil]
    intro hnil
    have hle := drop_eq_nil_iff.mp hnil
    rw [length_dt] at hle
    rw [length_dt, Tpkt.headerLen] at htotal
    rw [Tpkt.headerLen] at hle hge
    omega
  next hmo =>
    obtain ⟨frame, others, hfr, hoths, rfl⟩ := mapM_writePacket_cons hfrs
    rw [flatten_cons] at hs
    have hdata : (tsdu.take (maxData maxTpdu)).length = maxData maxTpdu := by
      rw [length_take]
      omega
    -- a full packet of a power of two has four octets more, of which only these four are in its length
    have htotal : 4 = (Tpkt.headerLen + (dt false (tsdu.take (maxData maxTpdu))).length) % 2 ^ 16 := by
      rw [length_dt, hdata, maxData, hpow, Tpkt.headerLen]
      have hk : 16 ≤ k := by
        rw [maxData, hpow] at hlong
        by_contra hlt
        have hle : 2 ^ k ≤ 2 ^ 15 := Nat.pow_le_pow_right (by decide) (by omega)
        omega
      obtain ⟨q, hq⟩ : ∃ q, 2 ^ k = 65536 * q := Nat.pow_dvd_pow 2 hk
      have hpos : 0 < 2 ^ k := Nat.two_pow_pos k
      rw [hq] at hpos ⊢
      omega
    obtain ⟨s₁, hrd, -⟩ := (Tpkt.readPacket_written hfr hs htotal).2 (Nat.le_refl _)
    rw [hrd] at hrcv
    dsimp only at hrcv
    rcases parseHeader_dt_take false (tsdu.take (maxData maxTpdu)) (4 - Tpkt.headerLen) with ⟨-, e, he⟩ | ⟨hle, -⟩
    · rw [he] at hrcv
      cases hrcv
    · exact absurd hle (by decide)

end Cotp

open Cotp Element Decoder

namespace Session

def siGiveTokens : UInt8 := 0x01
def siDataTransfer : UInt8 := 0x01
def siAbort : UInt8 := 0x19
def pgiUserData : UInt8 := 0xc1

def readLen : List UInt8 → Option (ℕ × ℕ)
  | 0xff :: hi :: lo :: _ => some (hi.toNat * 256 + lo.toNat, 3)
  | n :: _ => if n = 0xff then none else some (n.toNat, 1)
  | [] => none

def spduParams (spdu : List UInt8) : Except OsiError (List UInt8) :=
  if spdu.length < 2 then .error (.session "short SPDU")
  else
    match readLen spdu.tail with
    | none => .error (.session "short long-form LI")
    | some (li, n) =>
      if spdu.length < 1 + n + li then .error (.session ("SPDU LI " ++ toString li ++ " exceeds buffer"))
      else .ok ((spdu.drop (1 + n)).take li)

/-- The user data among the parameters. More `fuel` than octets is enough. -/
def findUserData : (fuel : ℕ) → List UInt8 → Except OsiError (Option (List UInt8))
  | fuel + 1, code :: rest =>
    if rest.isEmpty then .ok none
    else
      match readLen rest with
      | none => .error (.session "short parameter length")
      | some (plen, n) =>
        if rest.length < n + plen then .error (.session ("parameter length " ++ toString plen ++ " overflows"))
        else if code = pgiUserData then .ok (some ((rest.drop n).take plen))
        else findUserData fuel (rest.drop (n + plen))
  | _, _ => .ok none

def stripSpdus : (count : ℕ) → List UInt8 → Except OsiError (List UInt8)
  | count + 1, si :: li :: rest =>
    if si ≠ siDataTransfer then .ok (si :: li :: rest)
    else if rest.length < li.toNat then .error (.session ("bad SPDU LI " ++ toString li.toNat))
    else stripSpdus count (rest.drop li.toNat)
  | _, rest => .ok rest

def stripDataPrefix (tsdu : List UInt8) : Except OsiError (List UInt8) := stripSpdus 2 tsdu

def dataTsdu (userData : List UInt8) : List UInt8 := siGiveTokens :: 0 :: siDataTransfer :: 0 :: userData

def sendData (maxTpdu : ℕ) (userData : List UInt8) : Except OsiError (List UInt8) :=
  send maxTpdu (dataTsdu userData)

def receiveData (s : Chunks UInt8) : Except OsiError (List UInt8 × Chunks UInt8) :=
  match receive s with
  | .error e => .error e
  | .ok (tsdu, s) =>
    if tsdu.head? = some siAbort then
      let userData := match spduParams tsdu with
        | .ok params => ((findUserData (params.length + 1) params).toOption.join).getD []
        | .error _ => []
      .error (.aborted userData)
    else
      match stripDataPrefix tsdu with
      | .error e => .error e
      | .ok userData => .ok (userData, s)

end Session

namespace Presentation

def contextMms : Int64 := 3
def applicationConstructed (n : ℕ) : Tag := ⟨.application, true, n⟩

def userData (contextId : Int64) (payload : List UInt8) : Element :=
  cons (applicationConstructed 1)
    [cons tagSequence [intElem tagInteger contextId, rawContent (contextConstructed 0) payload]]

def mmsContext (contextId : Int64) : Int64 := if contextId = 0 then contextMms else contextId

def wrapData (contextId : Int64) (pdu : List UInt8) : List UInt8 := (userData (mmsContext contextId) pdu).encode

def dataValues : (fuel : ℕ) → Int64 → Decoder → Except OsiError (Int64 × List UInt8)
  | 0, _, _ => .error (.presentation "no data values in PDV-list")
  | fuel + 1, contextId, d =>
    if d.more then
      match d.readTlv with
      | .error e => .error (.asn1 e)
      | .ok ((tag, c), d) =>
        if tag = tagInteger then
          match decodeInt c with
          | .error e => .error (.asn1 e)
          | .ok n => dataValues fuel (Int64.ofInt n) d
        else if tag = contextConstructed 0 ∨ tag = contextPrimitive 1 then .ok (contextId, c)
        else dataValues fuel contextId d
    else .error (.presentation "no data values in PDV-list")

def parsePdvList (content : List UInt8) : Except OsiError (Int64 × List UInt8) :=
  match (new content).expect tagSequence with
  | .error e => .error (.asn1 e)
  | .ok (seq, _) => dataValues (seq.length + 1) 0 (new seq)

def parseUserData (pdu : List UInt8) : Except OsiError (Int64 × List UInt8) :=
  match (new pdu).readTlv with
  | .error e => .error (.asn1 e)
  | .ok ((tag, content), _) =>
    if tag ≠ applicationConstructed 1 then .error (.presentation ("expected fully-encoded-data, got " ++ tag.text))
    else parsePdvList content

def unwrapData (pdu : List UInt8) : Except OsiError (List UInt8) :=
  match parseUserData pdu with
  | .error e => .error e
  | .ok r => .ok r.2

def findFullyEncoded : (fuel : ℕ) → Decoder → Except OsiError (List UInt8)
  | 0, _ => .error (.presentation "no user data")
  | fuel + 1, d =>
    if d.more then
      match d.readTlv with
      | .error e => .error (.asn1 e)
      | .ok ((tag, c), d) =>
        if tag = applicationConstructed 1 then (parsePdvList c).map Prod.snd else findFullyEncoded fuel d
    else .error (.presentation "no user data")

def unwrapAbort (pdu : List UInt8) : Except OsiError (List UInt8) :=
  match (new pdu).readTlv with
  | .error e => .error (.asn1 e)
  | .ok ((tag, content), _) =>
    if tag ≠ contextConstructed 0 ∧ tag ≠ tagSequence then .error (.presentation ("ARU of tag " ++ tag.text))
    else findFullyEncoded (content.length + 1) (new content)

end Presentation

namespace Acse

def abortSourceUser : ℤ := 0
def abortSourceProvider : ℤ := 1
def tagAbrt : Tag := Presentation.applicationConstructed 4

def parseAbrt (apdu : List UInt8) : Except OsiError ℤ :=
  match (new apdu).expect tagAbrt with
  | .error _ => .error (.acse "not an ABRT")
  | .ok (content, _) =>
    match (new content).optional (contextPrimitive 0) with
    | .error e => .error (.asn1 e)
    | .ok (some src, _) => (decodeInt src).mapError .asn1
    | .ok (none, _) => .ok abortSourceUser

end Acse

inductive RecvError where
  | osi (e : OsiError)
  | aborted (who : String)

def sendMms (maxTpdu : ℕ) (contextId : Int64) (pdu : List UInt8) : Except OsiError (List UInt8) :=
  Session.sendData maxTpdu (Presentation.wrapData contextId pdu)

def received (ud : List UInt8) (s : Chunks UInt8) : Except RecvError (List UInt8 × Chunks UInt8) :=
  match Presentation.unwrapData ud with
  | .error e => .error (.osi e)
  | .ok pdu => .ok (pdu, s)

def recvMms (s : Chunks UInt8) : Except RecvError (List UInt8 × Chunks UInt8) :=
  match Session.receiveData s with
  | .error (.aborted userData) =>
    let source := (Presentation.unwrapAbort userData).toOption.bind fun abrt => (Acse.parseAbrt abrt).toOption
    .error (.aborted (if source = some Acse.abortSourceProvider then " by the peer's provider" else " by the peer"))
  | .error e => .error (.osi e)
  | .ok (ud, s) => received ud s

section RoundTrip
open Session Presentation
variable {contextId : Int64} {pdu : List UInt8}

lemma stripSpdus_data (count : ℕ) (rest : List UInt8) :
    stripSpdus (count + 1) (siDataTransfer :: 0 :: rest) = stripSpdus count rest := by
  rw [stripSpdus, if_neg (not_not.mpr rfl)]
  exact if_neg (Nat.not_lt_zero _)

lemma stripDataPrefix_dataTsdu (ud : List UInt8) : stripDataPrefix (dataTsdu ud) = .ok ud := by
  calc stripDataPrefix (dataTsdu ud)
      = stripSpdus 1 (siDataTransfer :: 0 :: ud) := stripSpdus_data 1 _
    _ = stripSpdus 0 ud := stripSpdus_data 0 ud
    _ = .ok ud := by
      rw [stripSpdus]
      intro count si li rest h
      cases h

def pdvList (contextId : Int64) (pdu : List UInt8) : Element :=
  cons tagSequence [intElem tagInteger contextId, rawContent (contextConstructed 0) pdu]

lemma pdvList_low (contextId : Int64) (pdu : List UInt8) : (pdvList contextId pdu).AllLow := by
  refine ⟨?_, ?_, ?_, trivial⟩
  · decide
  · change LowTag tagInteger
    decide
  · change LowTag (contextConstructed 0)
    decide

lemma userData_low (contextId : Int64) (pdu : List UInt8) : (userData contextId pdu).AllLow := by
  refine ⟨?_, pdvList_low contextId pdu, trivial⟩
  decide

lemma length_content_userData : (userData contextId pdu).content.length = (pdvList contextId pdu).size :=
  length_content_cons ⟨pdvList_low contextId pdu, trivial⟩

lemma length_content_pdvList : (pdvList contextId pdu).content.length =
    (intElem tagInteger contextId).size + (rawContent (contextConstructed 0) pdu).size :=
  length_content_cons (pdvList_low contextId pdu).2

section
variable (h : (pdvList contextId pdu).size < 2 ^ 32)
include h

lemma dataValues_pdvList {n : ℕ} :
    dataValues (n + 2) 0 (new (pdvList contextId pdu).content) = .ok (contextId, pdu) := by
  have hps := Fits.parts ⟨pdvList_low contextId pdu, h⟩
  have hint := hps.head
  have hraw := hps.tail.head
  have hintTag : (intElem tagInteger contextId).tag = tagInteger := rfl
  have hrawTag : (rawContent (contextConstructed 0) pdu).tag = contextConstructed 0 := rfl
  have hcnt : new (pdvList contextId pdu).content = ⟨0, (intElem tagInteger contextId).encode ++
      ((rawContent (contextConstructed 0) pdu).encode ++ [])⟩ := rfl
  rw [hcnt, dataValues, if_pos (more_encode hint.low), readTlv_encode hint.low hint.length_lt]
  dsimp only
  rw [if_pos hintTag, decodeInt_intElem]
  dsimp only
  rw [dataValues, if_pos (more_encode hraw.low), readTlv_encode hraw.low hraw.length_lt]
  dsimp only
  rw [hrawTag, if_neg (by decide), if_pos (.inl rfl), Int64.ofInt_toInt]
  rfl

lemma unwrapData_userData : unwrapData (userData contextId pdu).encode = .ok pdu := by
  have hlow := userData_low contextId pdu
  have htag : (userData contextId pdu).tag = applicationConstructed 1 := rfl
  have hfuel : ∃ n, (pdvList contextId pdu).content.length + 1 = n + 2 := by
    have hpos := length_content_lt (pdvList_low contextId pdu).2.1
    rw [length_content_pdvList]
    exact ⟨(intElem tagInteger contextId).size + (rawContent (contextConstructed 0) pdu).size - 1, by omega⟩
  obtain ⟨n, hfuel⟩ := hfuel
  have hprs : parsePdvList (userData contextId pdu).content = .ok (contextId, pdu) := by
    have hseq : (new (userData contextId pdu).content).expect tagSequence =
        .ok ((pdvList contextId pdu).content, ⟨(pdvList contextId pdu).size, []⟩) :=
      expect_first ⟨pdvList_low contextId pdu, h⟩ rfl
    rw [parsePdvList, hseq]
    dsimp only
    rw [hfuel, dataValues_pdvList h]
  rw [unwrapData, parseUserData, new_encode, readTlv_encode hlow (by rw [length_content_userData]; exact h)]
  dsimp only
  rw [if_neg (not_not.mpr htag), hprs]

end

variable {r : Int64 × List UInt8}

lemma length_dataValues {n : ℕ} {d : Decoder}
    (h : dataValues n contextId d = .ok r) : r.2.length ≤ d.rest.length := by
  induction n generalizing contextId d with
  | zero => cases h
  | succ n ih =>
    rw [dataValues] at h
    split at h
    · split at h
      · cases h
      next tag c d' hrd =>
      have hle := length_readTlv hrd
      split at h
      · split at h
        · cases h
        · exact Nat.le_trans (ih h) hle.2
      split at h
      · cases h
        exact hle.1
      · exact Nat.le_trans (ih h) hle.2
    · cases h

lemma length_parsePdvList {content : List UInt8}
    (h : parsePdvList content = .ok r) : r.2.length ≤ content.length := by
  rw [parsePdvList] at h
  split at h
  · cases h
  next seq d hseq =>
  rw [expect] at hseq
  split at hseq
  · cases hseq
  next got c d' hrd =>
  split at hseq
  · cases hseq
    exact Nat.le_trans (length_dataValues h) (length_readTlv hrd).1
  · cases hseq

lemma intSize_le (v : ℤ) (fuel : ℕ) : intSize v fuel ≤ fuel + 1 := by
  induction fuel generalizing v with
  | zero => exact Nat.le_refl _
  | succ fuel ih =>
    rw [intSize]
    split
    · omega
    · have hle := ih (v / 256)
      omega

lemma size_pdvList_le (contextId : Int64) (pdu : List UInt8) : (pdvList contextId pdu).size < pdu.length + 40 := by
  obtain ⟨-, hintLow, hrawLow, -⟩ := pdvList_low contextId pdu
  have hlist := size_le (pdvList_low contextId pdu)
  have hint := size_le hintLow
  have hraw : (rawContent (contextConstructed 0) pdu).size ≤ pdu.length + 7 := size_le hrawLow
  have hoct : (intElem tagInteger contextId).content.length ≤ 9 := by
    change (beOctets contextId.toInt (intSize contextId.toInt 8)).length ≤ 9
    rw [length_beOctets]
    exact intSize_le _ 8
  rw [length_content_pdvList] at hlist
  omega

lemma unwrapData_long (h : 2 ^ 32 ≤ (pdvList contextId pdu).size) :
    unwrapData (userData contextId pdu).encode ≠ .ok pdu := by
  intro heq
  have hlen : (userData contextId pdu).content.length = (pdvList contextId pdu).size := length_content_userData
  obtain ⟨d, hrd⟩ : ∃ d, (new (userData contextId pdu).encode).readTlv =
      .ok ((applicationConstructed 1, (userData contextId pdu).content.take
        ((userData contextId pdu).content.length % 2 ^ 32)), d) := by
    rw [new_encode, encode_eq (userData_low contextId pdu), append_assoc, append_assoc]
    exact ⟨_, readTlv_mod (userData contextId pdu).content (Nat.one_lt_two_pow (by decide))⟩
  rw [unwrapData, parseUserData, hrd] at heq
  dsimp only at heq
  rw [if_neg (not_not.mpr rfl), hlen] at heq
  split at heq
  · cases heq
  next r hprs =>
  have hle := length_parsePdvList hprs
  have hpdu : r.2 = pdu := Except.ok.inj heq
  have hadded := size_pdvList_le contextId pdu
  rw [hpdu, length_take] at hle
  omega

end RoundTrip

/-- A PDU arrives as it was sent, however the stream is split into reads, with nothing else taken from it; and
no TPDU with more than one octet of data is longer than the connection allows. -/
def Carries (maxTpdu : ℕ) (contextId : Int64) (pdu : List UInt8) : Prop :=
  (∃ octets, sendMms maxTpdu contextId pdu = .ok octets ∧ ∀ (s : Chunks UInt8) rest, s.left = octets ++ rest →
    ∃ s', s'.left = rest ∧ recvMms s = .ok (pdu, s')) ∧
  ∀ tpdu ∈ tpdus maxTpdu (Session.dataTsdu (Presentation.wrapData contextId pdu)),
    4 < tpdu.length → tpdu.length ≤ maxTpdu

/-- A PDU that fits into packets of 16 bits, as those of the connection are small or it is short, and into an
element whose length has four octets. -/
def Fits (maxTpdu : ℕ) (contextId : Int64) (pdu : List UInt8) : Prop :=
  (maxTpdu < 2 ^ 16 ∧ (pdvList (Presentation.mmsContext contextId) pdu).size < 2 ^ 32) ∨
    (Presentation.wrapData contextId pdu).length + 11 < 2 ^ 16

open Session Presentation
variable {maxTpdu k : ℕ} {contextId : Int64} {pdu octets : List UInt8} {s s' : Chunks UInt8}

lemma recvMms_of_receive {ud : List UInt8}
    (hrcv : receive s = .ok (dataTsdu ud, s')) : recvMms s = received ud s' := by
  have hhead : (dataTsdu ud).head? ≠ some siAbort := by
    change some siGiveTokens ≠ some siAbort
    decide
  have hdata : receiveData s = .ok (ud, s') := by
    rw [receiveData, hrcv]
    dsimp only
    rw [if_neg hhead, stripDataPrefix_dataTsdu]
  rw [recvMms, hdata]

lemma receive_of_recvMms (h : recvMms s = .ok (pdu, s')) : ∃ tsdu, receive s = .ok (tsdu, s') := by
  rw [recvMms] at h
  split at h
  · cases h
  · cases h
  next ud s₁ hdata =>
  rw [received] at h
  split at h
  · cases h
  cases h
  rw [receiveData] at hdata
  split at hdata
  · cases hdata
  next tsdu s2 hrcv =>
  split at hdata
  · cases hdata
  split at hdata
  · cases hdata
  · cases hdata
    exact ⟨tsdu, hrcv⟩

lemma length_dataTsdu (ud : List UInt8) : (dataTsdu ud).length = ud.length + 4 := rfl

lemma maxData_lt_iff (hpow : maxTpdu = 2 ^ k) {n : ℕ} :
    min (maxData maxTpdu) n + 7 < 2 ^ 16 ↔ maxTpdu < 2 ^ 16 ∨ n + 7 < 2 ^ 16 := by
  rcases Nat.lt_or_ge k 16 with hlt | hge
  · have hle : 2 ^ k ≤ 2 ^ 15 := Nat.pow_le_pow_right (by decide) (by omega)
    rw [maxData, hpow]
    omega
  have hle : 2 ^ 16 ≤ 2 ^ k := Nat.pow_le_pow_right (by decide) hge
  rw [maxData, hpow]
  omega

lemma carries_of_fits (hpow : maxTpdu = 2 ^ k) (h : Fits maxTpdu contextId pdu) : Carries maxTpdu contextId pdu := by
  have hsz : (pdvList (mmsContext contextId) pdu).size < 2 ^ 32 := by
    rcases h with ⟨-, hsz⟩ | hsh
    · exact hsz
    have hlow := userData_low (mmsContext contextId) pdu
    have hlt := length_content_lt hlow
    rw [length_content_userData] at hlt
    rw [wrapData, length_encode _ hlow] at hsh
    omega
  have hsh : min (maxData maxTpdu) (dataTsdu (wrapData contextId pdu)).length + 7 <
      2 ^ 16 := by
    rw [maxData_lt_iff hpow, length_dataTsdu]
    rcases h with ⟨hsmall, -⟩ | hsh
    · exact .inl hsmall
    · exact .inr (by omega)
  obtain ⟨octets, hsend, hrcv⟩ := receive_send hsh
  refine ⟨⟨octets, hsend, ?_⟩, fun tpdu htpdu => length_tpdus htpdu⟩
  intro s rest hs
  obtain ⟨s', hleft, hrcvd⟩ := hrcv s rest hs
  refine ⟨s', hleft, ?_⟩
  have hunwrap : unwrapData (wrapData contextId pdu) = .ok pdu := unwrapData_userData hsz
  rw [recvMms_of_receive hrcvd, received, hunwrap]

lemma fits_of_carries (hpow : maxTpdu = 2 ^ k) (h : Carries maxTpdu contextId pdu) : Fits maxTpdu contextId pdu := by
  obtain ⟨⟨octets, hsend, hrecv⟩, -⟩ := h
  obtain ⟨s', hleft, hpdu⟩ := hrecv (.whole octets) [] (by rw [Chunks.left_whole, append_nil])
  obtain ⟨tsdu, hrcv⟩ := receive_of_recvMms hpdu
  have hsh : min (maxData maxTpdu) (dataTsdu (wrapData contextId pdu)).length + 7 <
      2 ^ 16 := by
    by_contra hlong
    exact receive_cut hpow (Nat.not_lt.mp hlong) hsend (Chunks.left_whole octets) hrcv hleft
  rcases (maxData_lt_iff hpow).mp hsh with hsmall | hlen
  · left
    refine ⟨hsmall, ?_⟩
    by_contra hlong
    -- the unit arrives, but the length of its data is cut
    obtain ⟨octets', hsend', hreceive'⟩ := receive_send hsh
    have hoct : octets' = octets := Except.ok.inj (hsend'.symm.trans hsend)
    obtain ⟨s'', -, hunit⟩ := hreceive' (.whole octets) [] (by rw [Chunks.left_whole, append_nil, hoct])
    rw [recvMms_of_receive hunit, received] at hpdu
    split at hpdu
    · cases hpdu
    next got hunwrap =>
      cases hpdu
      exact unwrapData_long (Nat.not_lt.mp hlong) hunwrap
  · right
    rw [length_dataTsdu] at hlen
    omega

/-- A PDU is carried over a connection exactly if it fits, whatever the peer offered in the handshake. -/
theorem mms_carried_iff (c : Conn) (h : Negotiated c) (contextId : Int64) (pdu : List UInt8) :
    Carries c.maxTpdu contextId pdu ↔ Fits c.maxTpdu contextId pdu := by
  obtain ⟨k, hpow⟩ := h.pow
  exact ⟨fits_of_carries hpow, carries_of_fits hpow⟩

lemma length_lt_wrapData (contextId : Int64) (pdu : List UInt8) : pdu.length < (wrapData contextId pdu).length := by
  have hlow := userData_low (mmsContext contextId) pdu
  have hlist := pdvList_low (mmsContext contextId) pdu
  have hraw : pdu.length < (rawContent (contextConstructed 0) pdu).size := length_content_lt hlist.2.2.1
  have hcnt := length_content_lt hlist
  have hwhole := length_content_lt hlow
  rw [length_content_userData] at hwhole
  rw [length_content_pdvList] at hcnt
  rw [wrapData, length_encode _ hlow]
  omega

def crOffering (sizeCode : UInt8) : Chunks UInt8 :=
  .whole [3, 0, 0, 14, 9, 0xe0, 0, 0, 0, 1, 0, 0xc0, 1, sizeCode]

lemma negotiated_of_accept {c : Conn} (h : (accept s).map Prod.fst = .ok c) : Negotiated c := by
  rcases haccept : accept s with e | r
  · rw [haccept] at h
    cases h
  rw [haccept] at h
  cases h
  exact .inl ⟨s, r.2.1, r.2.2, haccept⟩

/-- A short PDU over the smallest packets there are. -/
theorem mms_carried_smallest : (Carries 1 3 [0xa0, 1, 2] ↔ Fits 1 3 [0xa0, 1, 2]) ∧ Fits 1 3 [0xa0, 1, 2] :=
  ⟨mms_carried_iff { maxTpdu := 1, dstRef := 1 } (negotiated_of_accept (s := crOffering 0) (by decide +kernel)) 3
    [0xa0, 1, 2], .inr (by decide +kernel)⟩

/-- To a peer that offers packets of 2¹⁶ octets, a PDU of that length is not carried. -/
theorem wide_packet_cut :
    Negotiated { maxTpdu := 2 ^ 16, dstRef := 1 } ∧ ¬ Carries (2 ^ 16) 3 (List.replicate (2 ^ 16) 0) := by
  refine ⟨negotiated_of_accept (s := crOffering 16) (by decide +kernel), ?_⟩
  intro h
  have hfits : Fits (2 ^ 16) 3 (replicate (2 ^ 16) 0) := fits_of_carries rfl h
  rcases hfits with ⟨hlt, -⟩ | hsh
  · exact absurd hlt (Nat.lt_irrefl _)
  have hlen := length_lt_wrapData 3 (replicate (2 ^ 16) 0)
  rw [length_replicate] at hlen
  omega

def recvMany : (n : ℕ) → Chunks UInt8 → Except RecvError (List (List UInt8))
  | 0, _ => .ok []
  | n + 1, s => do
    let (pdu, s) ← recvMms s
    return pdu :: (← recvMany n s)

/-- PDUs that fit are received each once and in the order they were sent, however the stream is split into
reads and whatever follows them. -/
theorem stream_carried (c : Conn) (hc : Negotiated c) (pdus : List (List UInt8))
    (hfits : ∀ pdu ∈ pdus, Fits c.maxTpdu contextId pdu) :
    ∃ frames, pdus.mapM (sendMms c.maxTpdu contextId) = .ok frames ∧ ∀ (s : Chunks UInt8) rest,
      s.left = frames.flatten ++ rest → recvMany pdus.length s = .ok pdus := by
  obtain ⟨k, hpow⟩ := hc.pow
  induction pdus with
  | nil => exact ⟨[], rfl, fun _ _ _ => rfl⟩
  | cons pdu pdus ih =>
    obtain ⟨hfirst, hrest⟩ := forall_mem_cons.mp hfits
    obtain ⟨frames, hfrs, hall⟩ := ih hrest
    obtain ⟨⟨octets, hsend, hrecv⟩, -⟩ := carries_of_fits hpow hfirst
    refine ⟨octets :: frames, ?_, ?_⟩
    · rw [mapM_cons, hsend, hfrs]
      rfl
    intro s rest hs
    -- The first PDU leaves the stream at the next one.
    obtain ⟨s', hleft, hpdu⟩ := hrecv s (frames.flatten ++ rest) (by rw [hs, flatten_cons, append_assoc])
    rw [length_cons, recvMany, hpdu]
    exact congrArg (Except.map (pdu :: ·)) (hall s' rest hleft)

/-- Two PDUs over a connection that carries packets of one octet. -/
theorem stream_carried_two : ∃ frames, [[0xa0, 1, 2], [0xa1]].mapM (sendMms 1 3) = .ok frames ∧
    ∀ (s : Chunks UInt8) rest, s.left = frames.flatten ++ rest → recvMany 2 s = .ok [[0xa0, 1, 2], [0xa1]] := by
  refine stream_carried { maxTpdu := 1, dstRef := 1 }
    (negotiated_of_accept (s := crOffering 0) (by decide +kernel)) _ (fun pdu h => .inr ?_)
  revert pdu
  decide +kernel

end Iec61850.Osi
