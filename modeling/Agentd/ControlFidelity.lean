import Agentd.ControlRequests

/-! # What the control API can rely on

A request that is reported as a success was performed, exactly as it was sent; every other packet is
refused by one response, or it is the last one that the fiber serves. -/
namespace ControlFidelity

open ByteString
open DataserviceRecords
open ClientProtocol
open ProtocolFiber
open ControlRequests

variable {S : Suite} {o : Outcome} {k : ControlContext} {r : ControlRequest} {d : Dispatched}

/-! ### What a request means -/

def Fitting (S : Suite) : ControlRequest → Prop
  | .authorizedEntityAdd _ enc sign => enc.length = S.encPubkeySize ∧ sign.length = S.signPubkeySize
  | .authorizedEntityCapabilityAdd .. => True
  | .privateKeySet _ encPub encPriv signPub signPriv =>
    encPub.length = S.encPubkeySize ∧ encPriv.length = S.encPrivkeySize ∧
      signPub.length = S.signPubkeySize ∧ signPriv.length = S.signPrivkeySize

def effect (k : ControlContext) : ControlRequest → ControlContext
  | .authorizedEntityAdd id enc sign =>
    { k with
      authorizedEntityDict := Function.update k.authorizedEntityDict id (some ⟨id, [], enc, sign⟩) }
  | .authorizedEntityCapabilityAdd id subject verb object =>
    { k with
      authorizedEntityDict := Function.update k.authorizedEntityDict id
        ((k.authorizedEntityDict id).map fun e =>
          { e with capabilities := (subject, verb, object) :: e.capabilities }) }
  | .privateKeySet id encPub encPriv signPub signPriv =>
    { k with
      agentdUuid := id
      agentdEncPubkey := encPub
      agentdEncPrivkey := encPriv
      agentdSignPubkey := signPub
      agentdSignPrivkey := signPriv
      privateKeySet := true }

/-- An entity is new, and a capability is new to an entity that is known. -/
def New (k : ControlContext) : ControlRequest → Prop
  | .authorizedEntityAdd id _ _ => k.authorizedEntityDict id = none
  | .authorizedEntityCapabilityAdd id subject verb object =>
    ∃ e, k.authorizedEntityDict id = some e ∧ (subject, verb, object) ∉ e.capabilities
  | .privateKeySet .. => True

structure Performed (k : ControlContext) (r : ControlRequest) (k' : ControlContext) : Prop where
  new : New k r
  context : k' = effect k r

def reportsSuccess (d : Dispatched) (requestId : BitVec 32) : Bool :=
  d.responses.any fun b =>
    match recvresp requestId b with
    | .error _ => false
    | .ok (_, status) => status == 0

/-! ### Responses -/

theorem recvresp_controlResponse (requestId requestId' : BitVec 32) (status : Status) :
    recvresp requestId (controlResponse requestId' status) =
      if requestId' = requestId then .ok (0, status) else .error .readUnexpectedDataType := by
  have hlen : ¬ (controlResponse requestId' status).length ≠ 12 := by simp [controlResponse]
  have hid : wordAt (controlResponse requestId' status) 0 = requestId' := by
    rw [wordAt, controlResponse, slice_append_self _ _ (by simp), bits_be (n := 4) (w := 32) rfl]
  have hoffset : wordAt (controlResponse requestId' status) 4 = 0 := by
    rw [wordAt, controlResponse, slice_append_skip _ _ _ (by simp), length_be,
      slice_append_self _ _ (by simp), bits_be (n := 4) (w := 32) rfl]
  have hstatus : wordAt (controlResponse requestId' status) 8 = status := by
    rw [wordAt, controlResponse, slice_append_skip _ _ _ (by simp), length_be,
      slice_append_skip _ _ _ (by simp), length_be, ResponseCodec.slice_be,
      bits_be (n := 4) (w := 32) rfl]
  rw [recvresp, if_neg hlen, hid, hoffset, hstatus]
  by_cases h : requestId' = requestId
  · rw [if_neg (not_not_intro h), if_pos h]
  · rw [if_pos h, if_neg h]

/-- Everything a packet can lead to: no response and the end of the fiber, a response that reports
an error and no effect, or a response that reports success and the whole effect. -/
inductive Served (k : ControlContext) (requestId : BitVec 32) (done : ControlContext → Prop)
    (d : Dispatched) : Prop
  | silent (responses : d.responses = []) (fails : d.retval ≠ none)
      (context : d.context = k ∨ done d.context)
  | refused (e : Failure) (responses : d.responses = [controlResponse requestId e.val])
      (context : d.context = k)
  | reported (responses : d.responses = [controlResponse requestId 0]) (context : done d.context)

theorem writeResponse_cases (k : ControlContext) (requestId : BitVec 32) (status : Status) :
    (writeResponse o k requestId status).context = k ∧
      ((writeResponse o k requestId status).responses = [] ∧
          (writeResponse o k requestId status).retval ≠ none ∨
        (writeResponse o k requestId status).responses = [controlResponse requestId status]) := by
  rw [writeResponse]
  split
  · exact ⟨rfl, Or.inl ⟨rfl, Option.some_ne_none _⟩⟩
  · split
    · refine ⟨rfl, Or.inl ⟨rfl, ?_⟩⟩
      obtain ⟨e', he'⟩ := mergeRelease_some o.responseReclaim ipcWriteDataFailure
      rw [he']
      exact Option.some_ne_none e'
    · exact ⟨rfl, Or.inr rfl⟩

theorem served_writeResponse {requestId : BitVec 32} {done : ControlContext → Prop}
    {k' : ControlContext} (hdone : done k') :
    Served k requestId done (writeResponse o k' requestId 0) := by
  obtain ⟨hcontext, ⟨hresponses, hfails⟩ | hresponses⟩ :=
    writeResponse_cases (o := o) k' requestId 0
  · exact .silent hresponses hfails (Or.inr (by rw [hcontext]; exact hdone))
  · exact .reported hresponses (by rw [hcontext]; exact hdone)

theorem served_reject {requestId : BitVec 32} {done : ControlContext → Prop} (e : Failure) :
    Served k requestId done (reject o k requestId e) := by
  obtain ⟨hcontext, ⟨hresponses, hfails⟩ | hresponses⟩ :=
    writeResponse_cases (o := o) k requestId e.val
  · refine .silent hresponses ?_ (Or.inl hcontext)
    simp only [reject]
    cases hretval : (writeResponse o k requestId e.val).retval with
    | none => exact absurd hretval hfails
    | some e' => exact Option.some_ne_none _
  · exact .refused e hresponses hcontext

/-! ### Requests -/

theorem served_authEntityAdd (id : Uuid) (enc sign : Bytes) :
    Served k reqIdAuthEntityAdd (Performed k (.authorizedEntityAdd id enc sign))
      (performAuthEntityAdd S o k id enc sign) := by
  rw [performAuthEntityAdd]
  split
  · exact served_reject _
  split
  · exact served_reject _
  cases hadd : authorizedEntityAdd S o k id enc sign with
  | mk k' retval =>
    rw [authorizedEntityAdd] at hadd
    cases retval with
    | some e =>
      have hk : k' = k := by
        split at hadd
        · exact (Prod.mk.inj hadd).1.symm
        · split at hadd
          · exact (Prod.mk.inj hadd).1.symm
          · cases hadd
      subst hk
      obtain ⟨hcontext, ⟨hresponses, hfails⟩ | hresponses⟩ :=
        writeResponse_cases (o := o) k' reqIdAuthEntityAdd e.val
      · refine .silent hresponses ?_ (Or.inl hcontext)
        cases hretval : (writeResponse o k' reqIdAuthEntityAdd e.val).retval with
        | none => exact absurd hretval hfails
        | some e' => simp [hretval]
      · exact .refused e hresponses hcontext
    | none =>
      refine served_writeResponse ?_
      split at hadd
      · cases hadd
      · split at hadd
        · rename_i e _
          obtain ⟨e', he'⟩ := mergeRelease_some o.entityRelease e
          rw [he'] at hadd
          cases hadd
        · rename_i hinsert
          obtain ⟨rfl, -⟩ := Prod.mk.inj hadd
          refine ⟨?_, rfl⟩
          rw [Option.or_eq_none_iff] at hinsert
          have habsent := hinsert.2
          rw [rbtreeInsert] at habsent
          split at habsent
          · cases habsent
          · rename_i hnone
            show k.authorizedEntityDict id = none
            simpa using hnone

theorem served_capabilityAdd (id subject verb object : Uuid) :
    Served k reqIdAuthEntityCapAdd
      (Performed k (.authorizedEntityCapabilityAdd id subject verb object))
      (performAuthEntityCapabilityAdd S o k id subject verb object) := by
  rw [performAuthEntityCapabilityAdd]
  cases hentity : k.authorizedEntityDict id with
  | none => exact .silent rfl (Option.some_ne_none _) (Or.inl rfl)
  | some entity =>
    simp only
    split
    · exact .silent rfl (Option.some_ne_none _) (Or.inl rfl)
    · split
      · refine .silent rfl ?_ (Or.inl rfl)
        rename_i e _
        obtain ⟨e', he'⟩ := mergeRelease_some o.capabilityRelease e
        rw [he']
        exact Option.some_ne_none e'
      · rename_i hinsert
        refine served_writeResponse ⟨⟨entity, hentity, ?_⟩, ?_⟩
        · intro hmem
          rw [rbtreeInsert, decide_eq_true hmem, if_pos rfl] at hinsert
          cases hinsert
        · simp only [effect, hentity, Option.map_some]

theorem served_perform (r : ControlRequest) :
    Served k r.requestId (Performed k r) (perform S o k r) := by
  cases r with
  | authorizedEntityAdd id enc sign => exact served_authEntityAdd id enc sign
  | authorizedEntityCapabilityAdd id subject verb object =>
    exact served_capabilityAdd id subject verb object
  | privateKeySet id encPub encPriv signPub signPriv =>
    exact served_writeResponse ⟨trivial, rfl⟩

/-! ### Decoding -/

def decodeRequest (S : Suite) (packet : Bytes) : Option ControlRequest :=
  let method := wordAt packet 0
  let payload := packet.drop 4
  if packet.length < 4 then none
  else if method = reqIdAuthEntityAdd then decodeAuthEntityAdd S payload
  else if method = reqIdAuthEntityCapAdd then decodeAuthEntityCapabilityAdd payload
  else if method = reqIdPrivateKeySet then decodePrivateKeySet S payload
  else none

theorem wordAt_be (v : BitVec 32) (rest : Bytes) : wordAt (be 4 v ++ rest) 0 = v := by
  rw [wordAt, slice_append_self _ _ (by simp), bits_be (n := 4) (w := 32) rfl]

theorem slice_skip {l : Bytes} {n : ℕ} (hl : l.length = n) (rest : Bytes) (i m : ℕ) :
    slice (l ++ rest) (n + i) m = slice rest i m := by
  rw [slice_append_skip _ _ _ (by omega), hl, Nat.add_sub_cancel_left]

theorem wordAt_skip {l : Bytes} (hl : l.length = 4) (rest : Bytes) (i : ℕ) :
    wordAt (l ++ rest) (4 + i) = wordAt rest i := by
  rw [wordAt, slice_skip hl, wordAt]

theorem uuidAt_be (v : Uuid) (rest : Bytes) : bits 128 (slice (be 16 v ++ rest) 0 16) = v := by
  rw [slice_append_self _ _ (by simp), bits_be (n := 16) (w := 128) rfl]

/-- The word in front of a key that has the size of the suite. -/
theorem toNat_sizeWord {key : Bytes} {size : ℕ} (hkey : key.length = size) (hsize : size < 2 ^ 32)
    (rest : Bytes) : (wordAt (sizeWord key ++ rest) 0).toNat = size := by
  rw [sizeWord, wordAt_be, hkey, BitVec.toNat_ofNat, Nat.mod_eq_of_lt hsize]

theorem slice_here {l : Bytes} {n : ℕ} (hl : l.length = n) (rest : Bytes) :
    slice (l ++ rest) 0 n = l := slice_append_self l rest hl

theorem slice_all {l : Bytes} {n : ℕ} (hl : l.length = n) : slice l 0 n = l := by
  rw [slice, List.drop_zero, List.take_of_length_le (by omega)]

theorem decodeAuthEntityAdd_encode {id : Uuid} {enc sign : Bytes}
    (henc : enc.length = S.encPubkeySize) (hsign : sign.length = S.signPubkeySize) :
    decodeAuthEntityAdd S (be 4 (0 : BitVec 32) ++ (sizeWord enc ++ (sizeWord sign ++
      (be 16 id ++ (enc ++ sign))))) = some (.authorizedEntityAdd id enc sign) := by
  obtain ⟨hfitsEnc, -, hfitsSign, -⟩ := S.fits
  have hoffset : (be 4 (0 : BitVec 32)).length = 4 := length_be 4 _
  generalize hpayload : be 4 (0 : BitVec 32) ++ (sizeWord enc ++ (sizeWord sign ++
    (be 16 id ++ (enc ++ sign)))) = payload
  have hlength : payload.length = 28 + enc.length + sign.length := by
    rw [← hpayload]
    simp only [List.length_append, length_be, length_sizeWord]
    omega
  have hencSize : (wordAt payload 4).toNat = S.encPubkeySize := by
    rw [← hpayload, show 4 = 4 + 0 from rfl, wordAt_skip hoffset, toNat_sizeWord henc hfitsEnc]
  have hsignSize : (wordAt payload 8).toNat = S.signPubkeySize := by
    rw [← hpayload, show 8 = 4 + (4 + 0) from rfl, wordAt_skip hoffset,
      wordAt_skip (length_sizeWord _), toNat_sizeWord hsign hfitsSign]
  have hbody : ∀ i m, slice payload (12 + i) m = slice (be 16 id ++ (enc ++ sign)) i m := by
    intro i m
    rw [← hpayload, show 12 + i = 4 + (4 + (4 + i)) by omega, slice_skip hoffset,
      slice_skip (length_sizeWord _), slice_skip (length_sizeWord _)]
  have hid : bits 128 (slice payload 12 16) = id := by
    rw [show 12 = 12 + 0 from rfl, hbody, uuidAt_be]
  have henc' : slice payload 28 S.encPubkeySize = enc := by
    rw [show 28 = 12 + (16 + 0) from rfl, hbody, slice_skip (length_be 16 _), slice_here henc]
  have hsign' : slice payload (28 + S.encPubkeySize) S.signPubkeySize = sign := by
    rw [show 28 + S.encPubkeySize = 12 + (16 + (S.encPubkeySize + 0)) by omega, hbody,
      slice_skip (length_be 16 _), slice_skip henc, slice_all hsign]
  rw [decodeAuthEntityAdd]
  simp only [hencSize, hsignSize, hid, henc', hsign']
  rw [if_neg (by omega), if_neg (by simp), if_neg (by omega)]

theorem decodeAuthEntityCapabilityAdd_encode (id subject verb object : Uuid) :
    decodeAuthEntityCapabilityAdd (be 4 (0 : BitVec 32) ++ (be 16 id ++ (be 16 subject ++
      (be 16 verb ++ be 16 object)))) =
      some (.authorizedEntityCapabilityAdd id subject verb object) := by
  have hlength : (be 4 (0 : BitVec 32) ++ (be 16 id ++ (be 16 subject ++ (be 16 verb ++
      be 16 object)))).length = 68 := by simp
  rw [decodeAuthEntityCapabilityAdd, if_neg (by omega), show 4 = 4 + 0 from rfl,
    slice_skip (length_be 4 _), uuidAt_be, show 20 = 4 + (16 + 0) from rfl,
    slice_skip (length_be 4 _), slice_skip (length_be 16 _), uuidAt_be,
    show 36 = 4 + (16 + (16 + 0)) from rfl, slice_skip (length_be 4 _), slice_skip (length_be 16 _),
    slice_skip (length_be 16 _), uuidAt_be, show 52 = 4 + (16 + (16 + (16 + 0))) from rfl,
    slice_skip (length_be 4 _), slice_skip (length_be 16 _), slice_skip (length_be 16 _),
    slice_skip (length_be 16 _), slice_all (length_be 16 _), bits_be (n := 16) (w := 128) rfl]

theorem decodePrivateKeySet_encode {id : Uuid} {encPub encPriv signPub signPriv : Bytes}
    (hencPub : encPub.length = S.encPubkeySize) (hencPriv : encPriv.length = S.encPrivkeySize)
    (hsignPub : signPub.length = S.signPubkeySize)
    (hsignPriv : signPriv.length = S.signPrivkeySize) :
    decodePrivateKeySet S (be 4 (0 : BitVec 32) ++ (sizeWord encPub ++ (sizeWord encPriv ++
      (sizeWord signPub ++ (sizeWord signPriv ++ (be 16 id ++ (encPub ++ (encPriv ++
        (signPub ++ signPriv))))))))) =
        some (.privateKeySet id encPub encPriv signPub signPriv) := by
  obtain ⟨hfitsEncPub, hfitsEncPriv, hfitsSignPub, hfitsSignPriv⟩ := S.fits
  have hoffset : (be 4 (0 : BitVec 32)).length = 4 := length_be 4 _
  generalize hpayload : be 4 (0 : BitVec 32) ++ (sizeWord encPub ++ (sizeWord encPriv ++
    (sizeWord signPub ++ (sizeWord signPriv ++ (be 16 id ++ (encPub ++ (encPriv ++
      (signPub ++ signPriv)))))))) = payload
  have hlength : payload.length =
      36 + encPub.length + encPriv.length + signPub.length + signPriv.length := by
    rw [← hpayload]
    simp only [List.length_append, length_be, length_sizeWord]
    omega
  have hencPubSize : (wordAt payload 4).toNat = S.encPubkeySize := by
    rw [← hpayload, show 4 = 4 + 0 from rfl, wordAt_skip hoffset,
      toNat_sizeWord hencPub hfitsEncPub]
  have hencPrivSize : (wordAt payload 8).toNat = S.encPrivkeySize := by
    rw [← hpayload, show 8 = 4 + (4 + 0) from rfl, wordAt_skip hoffset,
      wordAt_skip (length_sizeWord _), toNat_sizeWord hencPriv hfitsEncPriv]
  have hsignPubSize : (wordAt payload 12).toNat = S.signPubkeySize := by
    rw [← hpayload, show 12 = 4 + (4 + (4 + 0)) from rfl, wordAt_skip hoffset,
      wordAt_skip (length_sizeWord _), wordAt_skip (length_sizeWord _),
      toNat_sizeWord hsignPub hfitsSignPub]
  have hsignPrivSize : (wordAt payload 16).toNat = S.signPrivkeySize := by
    rw [← hpayload, show 16 = 4 + (4 + (4 + (4 + 0))) from rfl, wordAt_skip hoffset,
      wordAt_skip (length_sizeWord _), wordAt_skip (length_sizeWord _),
      wordAt_skip (length_sizeWord _), toNat_sizeWord hsignPriv hfitsSignPriv]
  have hbody : ∀ i m, slice payload (20 + i) m =
      slice (be 16 id ++ (encPub ++ (encPriv ++ (signPub ++ signPriv)))) i m := by
    intro i m
    rw [← hpayload, show 20 + i = 4 + (4 + (4 + (4 + (4 + i)))) by omega, slice_skip hoffset,
      slice_skip (length_sizeWord _), slice_skip (length_sizeWord _),
      slice_skip (length_sizeWord _), slice_skip (length_sizeWord _)]
  have hid : bits 128 (slice payload 20 16) = id := by
    rw [show 20 = 20 + 0 from rfl, hbody, uuidAt_be]
  have hencPub' : slice payload 36 S.encPubkeySize = encPub := by
    rw [show 36 = 20 + (16 + 0) from rfl, hbody, slice_skip (length_be 16 _), slice_here hencPub]
  have hencPriv' : slice payload (36 + S.encPubkeySize) S.encPrivkeySize = encPriv := by
    rw [show 36 + S.encPubkeySize = 20 + (16 + (S.encPubkeySize + 0)) by omega, hbody,
      slice_skip (length_be 16 _), slice_skip hencPub, slice_here hencPriv]
  have hsignPub' : slice payload (36 + S.encPubkeySize + S.encPrivkeySize) S.signPubkeySize =
      signPub := by
    rw [show 36 + S.encPubkeySize + S.encPrivkeySize =
      20 + (16 + (S.encPubkeySize + (S.encPrivkeySize + 0))) by omega, hbody,
      slice_skip (length_be 16 _), slice_skip hencPub, slice_skip hencPriv, slice_here hsignPub]
  have hsignPriv' : slice payload (36 + S.encPubkeySize + S.encPrivkeySize + S.signPubkeySize)
      S.signPrivkeySize = signPriv := by
    rw [show 36 + S.encPubkeySize + S.encPrivkeySize + S.signPubkeySize =
      20 + (16 + (S.encPubkeySize + (S.encPrivkeySize + (S.signPubkeySize + 0)))) by omega, hbody,
      slice_skip (length_be 16 _), slice_skip hencPub, slice_skip hencPriv, slice_skip hsignPub,
      slice_all hsignPriv]
  rw [decodePrivateKeySet]
  simp only [hencPubSize, hencPrivSize, hsignPubSize, hsignPrivSize, hid, hencPub', hencPriv',
    hsignPub', hsignPriv']
  rw [if_neg (by omega), if_neg (by simp), if_neg (by omega)]

/-- What the API writes is what the dispatcher reads. -/
theorem decodeRequest_encode (hr : Fitting S r) : decodeRequest S r.encode = some r := by
  cases r with
  | authorizedEntityAdd id enc sign =>
    obtain ⟨henc, hsign⟩ := hr
    simp only [ControlRequest.encode, encodeAuthorizedEntityAdd, decodeRequest, wordAt_be]
    rw [List.drop_left' (length_be 4 _), decodeAuthEntityAdd_encode henc hsign, if_neg (by simp),
      if_pos trivial]
  | authorizedEntityCapabilityAdd id subject verb object =>
    simp only [ControlRequest.encode, encodeAuthorizedEntityCapabilityAdd, decodeRequest, wordAt_be]
    rw [List.drop_left' (length_be 4 _), decodeAuthEntityCapabilityAdd_encode, if_neg (by simp),
      if_neg (by decide), if_pos trivial]
  | privateKeySet id encPub encPriv signPub signPriv =>
    obtain ⟨hencPub, hencPriv, hsignPub, hsignPriv⟩ := hr
    simp only [ControlRequest.encode, encodePrivateKeySet, decodeRequest, wordAt_be]
    rw [List.drop_left' (length_be 4 _), decodePrivateKeySet_encode hencPub hencPriv hsignPub
      hsignPriv, if_neg (by simp), if_neg (by decide), if_neg (by decide), if_pos trivial]

/-! ### Packets -/

def Done (S : Suite) (k : ControlContext) (packet : Bytes) (requestId : BitVec 32)
    (k' : ControlContext) : Prop :=
  (∃ r, decodeRequest S packet = some r ∧ r.requestId = requestId ∧ Performed k r k') ∨
    (requestId = reqIdFinalize ∧ k' = { k with shouldExit := true })

theorem requestId_ne_finalize (r : ControlRequest) : r.requestId ≠ reqIdFinalize := by
  cases r with
  | authorizedEntityAdd => exact (by decide : reqIdAuthEntityAdd ≠ reqIdFinalize)
  | authorizedEntityCapabilityAdd => exact (by decide : reqIdAuthEntityCapAdd ≠ reqIdFinalize)
  | privateKeySet => exact (by decide : reqIdPrivateKeySet ≠ reqIdFinalize)

theorem Served.mono {requestId : BitVec 32} {p q : ControlContext → Prop}
    (h : Served k requestId p d) (himp : ∀ k', p k' → q k') : Served k requestId q d := by
  cases h with
  | silent responses fails context => exact .silent responses fails (context.imp_right (himp _))
  | refused e responses context => exact .refused e responses context
  | reported responses context => exact .reported responses (himp _ context)

/-- The three requests of the API go the same way. -/
theorem served_dispatchRequest {packet : Bytes} {requestId : BitVec 32}
    {decoded : Option ControlRequest} (hdecode : decodeRequest S packet = decoded)
    (hid : ∀ r, decoded = some r → r.requestId = requestId) :
    Served k requestId (Done S k packet requestId) (dispatchRequest S o k requestId decoded) := by
  cases decoded with
  | none => exact served_reject _
  | some r =>
    have hr := hid r rfl
    have hserved := served_perform (S := S) (o := o) (k := k) r
    rw [hr] at hserved
    exact hserved.mono fun k' hk' => Or.inl ⟨r, hdecode, hr, hk'⟩

theorem requestId_decodeAuthEntityAdd {payload : Bytes}
    (h : decodeAuthEntityAdd S payload = some r) : r.requestId = reqIdAuthEntityAdd := by
  rw [decodeAuthEntityAdd] at h
  simp only [Option.ite_none_left_eq_some, Option.some.injEq] at h
  obtain ⟨-, -, -, rfl⟩ := h
  rfl

theorem requestId_decodeAuthEntityCapabilityAdd {payload : Bytes}
    (h : decodeAuthEntityCapabilityAdd payload = some r) : r.requestId = reqIdAuthEntityCapAdd := by
  rw [decodeAuthEntityCapabilityAdd] at h
  simp only [Option.ite_none_left_eq_some, Option.some.injEq] at h
  obtain ⟨-, rfl⟩ := h
  rfl

theorem requestId_decodePrivateKeySet {payload : Bytes}
    (h : decodePrivateKeySet S payload = some r) : r.requestId = reqIdPrivateKeySet := by
  rw [decodePrivateKeySet] at h
  simp only [Option.ite_none_left_eq_some, Option.some.injEq] at h
  obtain ⟨-, -, -, rfl⟩ := h
  rfl

theorem served_packet (k : ControlContext) (o : Outcome) (packet : Bytes) :
    ∃ requestId, Served k requestId (Done S k packet requestId)
      (decodeAndDispatch S o k packet) := by
  rw [decodeAndDispatch]
  by_cases hlength : packet.length < 4
  · rw [if_pos hlength]
    exact ⟨0, .silent rfl (Option.some_ne_none _) (Or.inl rfl)⟩
  rw [if_neg hlength]
  by_cases hadd : wordAt packet 0 = reqIdAuthEntityAdd
  · simp only [if_pos hadd]
    refine ⟨_, served_dispatchRequest ?_ fun r hr => requestId_decodeAuthEntityAdd hr⟩
    simp only [decodeRequest, if_neg hlength, if_pos hadd]
  simp only [if_neg hadd]
  by_cases hcapability : wordAt packet 0 = reqIdAuthEntityCapAdd
  · simp only [if_pos hcapability]
    refine ⟨_, served_dispatchRequest ?_ fun r hr => requestId_decodeAuthEntityCapabilityAdd hr⟩
    simp only [decodeRequest, if_neg hlength, if_neg hadd, if_pos hcapability]
  simp only [if_neg hcapability]
  by_cases hkey : wordAt packet 0 = reqIdPrivateKeySet
  · simp only [if_pos hkey]
    refine ⟨_, served_dispatchRequest ?_ fun r hr => requestId_decodePrivateKeySet hr⟩
    simp only [decodeRequest, if_neg hlength, if_neg hadd, if_neg hcapability, if_pos hkey]
  simp only [if_neg hkey]
  by_cases hfinalize : wordAt packet 0 = reqIdFinalize
  · simp only [if_pos hfinalize]
    exact ⟨reqIdFinalize, served_writeResponse (Or.inr ⟨rfl, rfl⟩)⟩
  · simp only [if_neg hfinalize]
    exact ⟨_, served_reject _⟩

theorem Served.answered {requestId : BitVec 32} {done : ControlContext → Prop}
    (h : Served k requestId done d) :
    d.responses.length ≤ 1 ∧ (d.responses = [] → d.retval ≠ none) := by
  cases h with
  | silent responses fails _ =>
    rw [responses]
    exact ⟨Nat.zero_le 1, fun _ => fails⟩
  | refused e responses _ =>
    rw [responses]
    exact ⟨Nat.le_refl 1, fun hnil => by cases hnil⟩
  | reported responses _ =>
    rw [responses]
    exact ⟨Nat.le_refl 1, fun hnil => by cases hnil⟩

theorem Served.success {requestId requestId' : BitVec 32} {done : ControlContext → Prop}
    (h : Served k requestId done d) (hsuccess : reportsSuccess d requestId' = true) :
    requestId = requestId' ∧ done d.context := by
  rw [reportsSuccess] at hsuccess
  cases h with
  | silent responses _ _ =>
    rw [responses] at hsuccess
    cases hsuccess
  | refused e responses _ =>
    rw [responses, List.any_cons, List.any_nil, Bool.or_false, recvresp_controlResponse] at hsuccess
    by_cases hid : requestId = requestId'
    · simp only [if_pos hid, beq_iff_eq] at hsuccess
      exact absurd hsuccess e.property
    · simp only [if_neg hid] at hsuccess
      cases hsuccess
  | reported responses context =>
    rw [responses, List.any_cons, List.any_nil, Bool.or_false, recvresp_controlResponse] at hsuccess
    by_cases hid : requestId = requestId'
    · exact ⟨hid, context⟩
    · simp only [if_neg hid] at hsuccess
      cases hsuccess

/-! ### Runs -/

/-- One packet: a response or the end of the fiber, and no success without the effect. -/
structure Faithful (S : Suite) (x : Exchange) : Prop where
  answered : x.result.responses.length ≤ 1
  unanswered : x.result.responses = [] → ends x.result x.outcome = true
  performed : ∀ requestId, reportsSuccess x.result requestId = true →
    Done S x.before x.packet requestId x.result.context
  sent : ∀ r, Fitting S r → x.packet = r.encode →
    reportsSuccess x.result r.requestId = true → Performed x.before r x.result.context

def account (S : Suite) (k : ControlContext) (x : Exchange) : ControlContext :=
  match decodeRequest S x.packet with
  | none => k
  | some r => if reportsSuccess x.result r.requestId then effect k r else k

theorem faithful_dispatch (k : ControlContext) (o : Outcome) (packet : Bytes) :
    Faithful S ⟨k, packet, o, decodeAndDispatch S o k packet⟩ := by
  obtain ⟨requestId, hserved⟩ := served_packet (S := S) k o packet
  refine ⟨hserved.answered.1, ?_, ?_, ?_⟩
  · intro hnil
    have hfails := hserved.answered.2 hnil
    rw [← Option.isSome_iff_ne_none] at hfails
    simp only [ends, hfails, Bool.true_or]
  · intro requestId' hsuccess
    obtain ⟨rfl, hdone⟩ := hserved.success hsuccess
    exact hdone
  · intro r hr hpacket hsuccess
    obtain ⟨rfl, hdone⟩ := hserved.success hsuccess
    have hpacket' : packet = r.encode := hpacket
    subst hpacket'
    rcases hdone with ⟨r', hdecode, -, hperformed⟩ | ⟨hfinalize, -⟩
    · rw [decodeRequest_encode hr] at hdecode
      obtain rfl := Option.some.inj hdecode
      exact hperformed
    · exact absurd hfinalize (requestId_ne_finalize r)

/-- A packet after which the fiber goes on was refused, or it was performed and reported so. -/
theorem context_eq_account {packet : Bytes}
    (hgoes : ends (decodeAndDispatch S o k packet) o = false) :
    (decodeAndDispatch S o k packet).context =
      account S k ⟨k, packet, o, decodeAndDispatch S o k packet⟩ := by
  simp only [ends, Bool.or_eq_false_iff, Option.isSome_eq_false_iff, Option.isNone_iff_eq_none]
    at hgoes
  obtain ⟨⟨hretval, -⟩, hexit⟩ := hgoes
  obtain ⟨requestId, hserved⟩ := served_packet (S := S) k o packet
  simp only [account]
  cases hserved with
  | silent _ fails _ => exact absurd hretval fails
  | refused e responses context =>
    have hfails : ∀ requestId', reportsSuccess (decodeAndDispatch S o k packet) requestId' =
        false := by
      intro requestId'
      rw [reportsSuccess, responses, List.any_cons, List.any_nil, Bool.or_false,
        recvresp_controlResponse]
      by_cases hid : requestId = requestId'
      · simp only [if_pos hid, beq_eq_false_iff_ne]
        exact e.property
      · simp only [if_neg hid]
    rw [context]
    cases decodeRequest S packet with
    | none => rfl
    | some r => simp only [hfails, Bool.false_eq_true, if_false]
  | reported responses context =>
    rcases context with ⟨r, hdecode, hid, hperformed⟩ | ⟨-, hcontext⟩
    · have hreported : reportsSuccess (decodeAndDispatch S o k packet) r.requestId = true := by
        rw [reportsSuccess, responses, List.any_cons, List.any_nil, Bool.or_false,
          recvresp_controlResponse, if_pos hid.symm]
        rfl
      simp only [hdecode, hreported, if_true]
      exact hperformed.context
    · rw [hcontext] at hexit
      cases hexit

theorem serve_account (packets : List (Bytes × Outcome)) (k : ControlContext)
    {earlier later : List Exchange}
    {x : Exchange} (h : serve S k packets = earlier ++ x :: later) :
    x.before = earlier.foldl (account S) k := by
  induction packets generalizing k earlier with
  | nil =>
    have hlength := congrArg List.length h
    simp [serve] at hlength
  | cons p packets ih =>
    obtain ⟨packet, o⟩ := p
    simp only [serve] at h
    cases earlier with
    | nil =>
      obtain ⟨rfl, -⟩ := List.cons.inj h
      rfl
    | cons y earlier =>
      rw [List.cons_append] at h
      obtain ⟨rfl, hrest⟩ := List.cons.inj h
      cases hends : ends (decodeAndDispatch S o k packet) o with
      | true =>
        have hlength := congrArg List.length hrest
        simp [hends] at hlength
      | false =>
        simp only [hends, Bool.false_eq_true, if_false] at hrest
        rw [List.foldl_cons, ← context_eq_account hends]
        exact ih _ hrest

theorem serve_faithful (packets : List (Bytes × Outcome)) (k : ControlContext) :
    ∀ x ∈ serve S k packets, Faithful S x := by
  induction packets generalizing k with
  | nil =>
    intro x hx
    cases hx
  | cons p packets ih =>
    obtain ⟨packet, o⟩ := p
    intro x hx
    simp only [serve] at hx
    rcases List.mem_cons.mp hx with rfl | hrest
    · exact faithful_dispatch k o packet
    · split at hrest
      · cases hrest
      · exact ih _ x hrest

/-- Whatever is sent over the control socket, and whatever fails. -/
theorem control_api_is_faithful (S : Suite) (k : ControlContext)
    (packets : List (Bytes × Outcome)) :
    (∀ x ∈ serve S k packets, Faithful S x) ∧
      ∀ earlier x later, serve S k packets = earlier ++ x :: later →
        x.before = earlier.foldl (account S) k :=
  ⟨serve_faithful packets k, fun _ _ _ h => serve_account packets k h⟩

/-- A suite with keys of one and two bytes, and nothing that fails. -/
def shortSuite : Suite := ⟨1, 2, 1, 2, by decide, requestPacketBad⟩

def nothingFails : Outcome where
  encPubkeyAllocFails := false
  signPubkeyAllocFails := false
  entityAlloc := none
  treeCreate := none
  entityInsert := none
  entityRelease := none
  capabilityCreate := none
  capabilityInsert := none
  capabilityRelease := none
  responseAllocFails := false
  responseWrite := none
  responseReclaim := none
  requestReclaim := none

def newControlContext : ControlContext := ⟨0, [0], [0, 0], [0], [0, 0], false, fun _ => none, false⟩

def startUp : List (Bytes × Outcome) :=
  [ControlRequest.privateKeySet 6 [1] [2, 3] [4] [5, 6], .authorizedEntityAdd 5 [7] [8],
    .authorizedEntityCapabilityAdd 5 5 9 6, .authorizedEntityAdd 5 [9] [9],
    .authorizedEntityCapabilityAdd 5 5 9 6].map fun r => (r.encode, nothingFails)

/-- The entity that is added twice is refused, and the capability that is added twice ends the fiber
without a response. -/
theorem startUp_is_faithful :
    ((serve shortSuite newControlContext startUp).map fun x => x.result.responses) =
        [[controlResponse reqIdPrivateKeySet 0], [controlResponse reqIdAuthEntityAdd 0],
          [controlResponse reqIdAuthEntityCapAdd 0],
          [controlResponse reqIdAuthEntityAdd requestPacketBad.val], []] ∧
      (∀ x ∈ serve shortSuite newControlContext startUp, Faithful shortSuite x) ∧
      ∀ earlier x later, serve shortSuite newControlContext startUp = earlier ++ x :: later →
        x.before = earlier.foldl (account shortSuite) newControlContext :=
  ⟨by decide +kernel, control_api_is_faithful shortSuite newControlContext startUp⟩

end ControlFidelity
