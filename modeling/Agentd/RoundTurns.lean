import Agentd.CanonizationSystem

/-! # What a callback does

Each callback of the canonization service either ends it or sends exactly one message and leaves an
instance that waits for the answer. `Turn` lists the possibilities once, for every callback that is
given a message. -/
namespace RoundTurns

open ByteString
open CertificateFields
open DataserviceRecords
open DataserviceStore
open DataserviceRequests
open DataserviceDispatch
open DataserviceClient
open CanonizationService

def ReadsEntry (resp : Response) : Prop :=
  resp.method = Method.appPqTransactionFirstRead.code ∨
    resp.method = Method.appPqTransactionRead.code

def drawnBlockId (packet : Bytes) : Option Uuid :=
  if packet.length < 12 ∨ bits 32 (slice packet 0 4) ≠ methodGetRandomBytes ∨
      bits 32 (slice packet 8 4) ≠ 0 ∨ (packet.drop 12).length ≠ 16 then none
  else some (bits 128 (packet.drop 12))

inductive Turn (E : Env) (B : CertBuilder) (inst : CanonizationService.Instance) :
    Message → Effect → Prop
  | exits {m : Message} {inst' : CanonizationService.Instance} (h : inst'.forceExit = true) :
    Turn E B inst m (inst', [])
  | begins :
    Turn E B inst .timer
      ({ inst with transactionList := some [], state := .waitrespGetRandomBytes },
        [.randomRequest])
  | drew {packet : Bytes} {id : Uuid} (h : drawnBlockId packet = some id) :
    Turn E B inst (.randomResponse packet)
      ({ inst with blockId := id, state := .waitrespChildContextCreate },
        [.dataRequest (encodeRequestChildContextCreate canonizationCaps)])
  | created {resp : Response} (hm : resp.method = Method.llChildContextCreate.code)
      {child : BitVec 32} (h : decodeResponseChildContextCreate resp = some (.ok child)) :
    Turn E B inst (.dataResponse resp)
      ({ inst with dataChildContext := child, state := .waitrespLatestBlockIdGet },
        [.dataRequest (encodeRequestLatestBlockIdGet child)])
  | emptyChain {resp : Response} (hm : resp.method = Method.appBlockIdLatestRead.code)
      (h : decodeResponseLatestBlockIdGet resp = some (.ok E.rootBlock)) :
    Turn E B inst (.dataResponse resp)
      ({ inst with previousBlockId := E.rootBlock, blockHeight := 1,
                   state := .waitrespPqTxnFirstGet },
        [.dataRequest (encodeRequestTransactionGetFirst inst.dataChildContext)])
  | latest {resp : Response} (hm : resp.method = Method.appBlockIdLatestRead.code) {id : Uuid}
      (h : decodeResponseLatestBlockIdGet resp = some (.ok id)) (hne : id ≠ E.rootBlock) :
    Turn E B inst (.dataResponse resp)
      ({ inst with previousBlockId := id, state := .waitrespBlockGet },
        [.dataRequest (encodeRequestBlockGet inst.dataChildContext id true)])
  | block {resp : Response} (hm : resp.method = Method.appBlockRead.code) {node : DataBlockNode}
      {cert : Bytes} (h : decodeResponseBlockGet resp = some (.ok (node, cert)))
      (signature : Bytes) :
    Turn E B inst (.dataResponse resp)
      ({ inst with blockHeight := node.netBlockHeight + 1, previousBlockSignature := signature,
                   state := .waitrespPqTxnFirstGet },
        [.dataRequest (encodeRequestTransactionGetFirst inst.dataChildContext)])
  | collects {resp : Response} (hm : ReadsEntry resp) {txns : List Transaction}
      (h : inst.transactionList = some txns) (txn : Transaction) :
    Turn E B inst (.dataResponse resp)
      ({ inst with transactionList := some (txns ++ [txn]) },
        [.dataRequest (encodeRequestTransactionGet inst.dataChildContext txn.node.next)])
  | makes {resp : Response} (hm : ReadsEntry resp) {txns : List Transaction} {now : BitVec 64}
      {key : PrivateKey} {cert : Bytes} (hlist : inst.transactionList.isSome = true)
      (hne : txns ≠ []) (hkey : inst.privateKey = some key)
      (h : B.build (blockCertificateSize txns) (blockCertificateFields B now inst txns) key =
        some cert) :
    Turn E B inst (.dataResponse resp)
      ({ inst with transactionList := some txns, state := .waitrespBlockMake },
        [.dataRequest (encodeRequestBlockMake inst.dataChildContext inst.blockId cert)])
  | announcesLatest {resp : Response} (hm : ReadsEntry resp) (h : inst.firstTime = true) :
    Turn E B inst (.dataResponse resp)
      ({ inst with firstTime := false, blockId := inst.previousBlockId,
                   state := .waitrespNotifyBlockUpdate },
        [.blockUpdate inst.previousBlockId])
  | finishes {resp : Response} (hm : ReadsEntry resp) :
    Turn E B inst (.dataResponse resp)
      ({ inst with state := .waitrespChildContextClose },
        [.dataRequest (encodeRequestChildContextClose inst.dataChildContext)])
  | announces {resp : Response} (hm : resp.method = Method.appBlockWrite.code) :
    Turn E B inst (.dataResponse resp)
      ({ inst with state := .waitrespNotifyBlockUpdate }, [.blockUpdate inst.blockId])
  | announced (packet : Bytes) :
    Turn E B inst (.notifyResponse packet)
      ({ inst with state := .waitrespChildContextClose },
        [.dataRequest (encodeRequestChildContextClose inst.dataChildContext)])
  | sleeps {resp : Response} (hm : resp.method = Method.llChildContextClose.code) :
    Turn E B inst (.dataResponse resp)
      ({ inst with state := .idle, blockId := zeroUuid, transactionList := none }, [.timer])
  | beginsAgain {resp : Response} (hm : resp.method = Method.llChildContextClose.code) :
    Turn E B inst (.dataResponse resp)
      ({ inst with state := .waitrespGetRandomBytes, blockId := zeroUuid,
                   transactionList := some [] }, [.randomRequest])

section Callbacks

variable {E : Env} {B : CertBuilder} {o : Outside} {inst : CanonizationService.Instance}
  {e : Effect} {resp : Response} {packet : Bytes}

theorem turn_exit {m : Message} (inst' : CanonizationService.Instance) :
    Turn E B inst m (exitEventLoop inst', []) :=
  .exits rfl

theorem timerCb_turn : Turn E B inst .timer (timerCb o inst) := by
  unfold timerCb
  split
  · rename_i hexit
    exact .exits hexit
  · split
    · exact turn_exit _
    · exact .begins

theorem randomRead_turn :
    Turn E B inst (.randomResponse packet) (CanonizationService.randomRead o inst packet) := by
  unfold CanonizationService.randomRead
  split
  · rename_i hexit
    exact .exits hexit
  · split
    · exact turn_exit _
    · split
      · exact turn_exit _
      · rename_i hsize
        split
        · exact turn_exit _
        · rename_i htaken
          unfold sendreqChildContextCreate sendreq
          split
          · exact turn_exit _
          · apply Turn.drew
            rw [drawnBlockId, if_neg (not_or.mpr ⟨hsize, htaken⟩)]

theorem childContextClose_turn {m : Message}
    (h : Turn E B inst m ({ inst with state := .waitrespChildContextClose },
      [.dataRequest (encodeRequestChildContextClose inst.dataChildContext)])) :
    Turn E B inst m (CanonizationService.childContextClose o inst) := by
  unfold CanonizationService.childContextClose
  split
  · exact turn_exit _
  · exact h

theorem notifyRead_turn :
    Turn E B inst (.notifyResponse packet) (CanonizationService.notifyRead o inst packet) := by
  unfold CanonizationService.notifyRead
  split
  · rename_i hexit
    exact .exits hexit
  · split
    · exact turn_exit _
    · split
      · exact turn_exit _
      · split
        · exact turn_exit _
        · exact childContextClose_turn (.announced packet)

theorem responseChildContextCreate_turn
    (hm : resp.method = Method.llChildContextCreate.code) :
    Turn E B inst (.dataResponse resp) (responseChildContextCreate o inst resp) := by
  unfold responseChildContextCreate
  split
  · rename_i child hdec
    unfold sendreqBlockIdLatestGet sendreq
    split
    · exact turn_exit _
    · exact .created hm hdec
  · exact turn_exit _

theorem responseChildContextClose_turn (hm : resp.method = Method.llChildContextClose.code)
    (hrun : inst.forceExit = false) (he : responseChildContextClose o inst = some e) :
    Turn E B inst (.dataResponse resp) e := by
  obtain ⟨txns, -, rfl⟩ := Option.map_eq_some_iff.mp he
  unfold reset
  simp only
  split
  · split
    · exact turn_exit _
    · exact .sleeps hm
  · unfold timerCb
    rw [if_neg (by simp [hrun])]
    split
    · exact turn_exit _
    · exact .beginsAgain hm

theorem responseLatestBlockIdRead_turn
    (hm : resp.method = Method.appBlockIdLatestRead.code) :
    Turn E B inst (.dataResponse resp) (responseLatestBlockIdRead E o inst resp) := by
  unfold responseLatestBlockIdRead
  split
  · rename_i id hdec
    simp only
    split
    · rename_i hroot
      subst hroot
      unfold sendreqTransactionGetFirst sendreq
      split
      · exact turn_exit _
      · exact .emptyChain hm hdec
    · rename_i hroot
      unfold sendreqBlockGet sendreq
      split
      · exact turn_exit _
      · exact .latest hm hdec hroot
  · exact turn_exit _

/-- The certificate of the latest block only gives a signature. -/
theorem parseBlock_eq {cert : Bytes} {inst' : CanonizationService.Instance}
    (h : parseBlock E o inst cert = some inst') :
    ∃ signature, inst' = { inst with previousBlockSignature := signature } := by
  unfold parseBlock at h
  split at h
  · cases h
  · split at h
    · cases h
    · split at h
      · cases h
      · split at h
        · cases h
        · split at h
          · cases h
            exact ⟨inst.previousBlockSignature, rfl⟩
          · cases h
            exact ⟨_, rfl⟩

theorem responseBlockRead_turn (hm : resp.method = Method.appBlockRead.code) :
    Turn E B inst (.dataResponse resp) (responseBlockRead E o inst resp) := by
  unfold responseBlockRead
  split
  · rename_i node cert hdec
    simp only
    split
    · exact turn_exit _
    · rename_i inst' hparse
      obtain ⟨signature, rfl⟩ := parseBlock_eq hparse
      unfold sendreqTransactionGetFirst sendreq
      split
      · exact turn_exit _
      · exact .block hm hdec signature
  · exact turn_exit _

theorem completeUpdate_turn (hm : ReadsEntry resp) :
    Turn E B inst (.dataResponse resp) (completeUpdate o inst) := by
  unfold completeUpdate
  split
  · rename_i hfirst
    unfold notifyBlockUpdate
    split
    · exact turn_exit _
    · exact .announcesLatest hm hfirst
  · exact childContextClose_turn (.finishes hm)

/-- The list that is sent is the one that was read, with the entry at hand or without it. -/
theorem blockMake_turn (hm : ReadsEntry resp) (txns : List Transaction)
    (hlist : inst.transactionList.isSome = true)
    (hcase : txns = [] → inst.transactionList = some [])
    (he : CanonizationService.blockMake B o { inst with transactionList := some txns } = some e) :
    Turn E B inst (.dataResponse resp) e := by
  unfold CanonizationService.blockMake at he
  cases txns with
  | nil =>
    have hsame : { inst with transactionList := some [] } = inst := by
      rw [← hcase rfl]
    cases he
    rw [hsame]
    exact completeUpdate_turn hm
  | cons txn rest =>
    simp only at he
    split at he
    · cases he
      exact turn_exit _
    · split at he
      · cases he
      · rename_i key hkey
        split at he
        · cases he
          exact turn_exit _
        · rename_i cert hbuild
          split at he
          · cases he
            exact turn_exit _
          · cases he
            exact .makes hm hlist (List.cons_ne_nil txn rest) hkey hbuild

theorem collectTransaction_turn (hm : ReadsEntry resp) {txn : Transaction}
    (he : collectTransaction B o inst txn = some e) : Turn E B inst (.dataResponse resp) e := by
  unfold collectTransaction at he
  split at he
  · cases he
    exact turn_exit _
  · split at he
    · cases he
    · rename_i txns hlist
      have hsome : inst.transactionList.isSome = true := by
        rw [hlist]
        rfl
      split at he
      · cases he
        exact turn_exit _
      · simp only at he
        split at he
        · exact blockMake_turn hm _ hsome (by simp) he
        · split at he
          · exact blockMake_turn hm _ hsome (by simp) he
          · unfold sendreq at he
            split at he
            · cases he
              exact turn_exit _
            · cases he
              exact .collects hm hlist txn

/-- Making a block of the list as it is. -/
theorem blockMake_turn_as_is (hm : ReadsEntry resp)
    (he : CanonizationService.blockMake B o inst = some e) :
    Turn E B inst (.dataResponse resp) e := by
  cases hlist : inst.transactionList with
  | none =>
    rw [CanonizationService.blockMake, hlist] at he
    cases he
  | some txns =>
    have hsame : { inst with transactionList := some txns } = inst := by
      rw [← hlist]
    refine blockMake_turn hm txns (by simp [hlist]) ?_ (by rw [hsame]; exact he)
    rintro rfl
    exact hlist

theorem responseTransactionFirstRead_turn
    (hm : resp.method = Method.appPqTransactionFirstRead.code)
    (he : responseTransactionFirstRead B o inst resp = some e) :
    Turn E B inst (.dataResponse resp) e := by
  unfold responseTransactionFirstRead at he
  split at he
  · split at he
    · cases he
      exact completeUpdate_turn (Or.inl hm)
    · exact collectTransaction_turn (Or.inl hm) he
  · cases he
    exact completeUpdate_turn (Or.inl hm)
  · cases he
    exact turn_exit _

theorem responseTransactionRead_turn (hm : resp.method = Method.appPqTransactionRead.code)
    (he : responseTransactionRead B o inst resp = some e) :
    Turn E B inst (.dataResponse resp) e := by
  unfold responseTransactionRead at he
  split at he
  · split at he
    · exact blockMake_turn_as_is (Or.inr hm) he
    · exact collectTransaction_turn (Or.inr hm) he
  · exact blockMake_turn_as_is (Or.inr hm) he
  · cases he
    exact turn_exit _

theorem responseBlockWrite_turn (hm : resp.method = Method.appBlockWrite.code) :
    Turn E B inst (.dataResponse resp) (responseBlockWrite o inst) := by
  unfold responseBlockWrite notifyBlockUpdate
  split
  · exact turn_exit _
  · exact .announces hm

theorem dataRead_turn (hrun : inst.forceExit = false)
    (he : CanonizationService.dataRead E B o inst resp = some e) :
    Turn E B inst (.dataResponse resp) e := by
  unfold CanonizationService.dataRead at he
  rw [if_neg (by simp [hrun])] at he
  split at he
  · rename_i hm
    cases he
    exact responseChildContextCreate_turn hm
  split at he
  · rename_i hm
    exact responseChildContextClose_turn hm hrun he
  split at he
  · rename_i hm
    exact responseTransactionFirstRead_turn hm he
  split at he
  · rename_i hm
    exact responseTransactionRead_turn hm he
  split at he
  · rename_i hm
    cases he
    exact responseLatestBlockIdRead_turn hm
  split at he
  · rename_i hm
    cases he
    exact responseBlockRead_turn hm
  split at he
  · rename_i hm
    cases he
    exact responseBlockWrite_turn hm
  · cases he
    exact turn_exit _

/-! ### Control commands -/

inductive ControlTurn (inst : CanonizationService.Instance) : Effect → Prop
  | exits {inst' : CanonizationService.Instance} {ms : List Message}
      (h : inst'.forceExit = true) : ControlTurn inst (inst', ms)
  | refused : ControlTurn inst (inst, [])
  | configured (maxMilliseconds maxTransactions : BitVec 64) (h : inst.configured = false) :
    ControlTurn inst ({ inst with
      configured := true
      blockMaxMilliseconds := maxMilliseconds
      blockMaxTransactions := maxTransactions }, [])
  | keySet (key : PrivateKey) (h : inst.privateKey.isSome = false) :
    ControlTurn inst ({ inst with privateKey := some key }, [])
  | started (hkey : inst.privateKey.isSome = true) (h : inst.running = false) :
    ControlTurn inst ({ inst with running := true, firstTime := true }, [.timer])

theorem controlRead_turn (c : ControlCommand) : ControlTurn inst (controlRead o inst c) := by
  cases c with
  | configure maxMilliseconds maxTransactions =>
    rw [controlRead]
    split
    · exact .refused
    · rename_i hnew
      simp only [Bool.or_eq_true, not_or, Bool.not_eq_true] at hnew
      exact .configured _ _ hnew.2
  | privateKeySet key =>
    rw [controlRead]
    split
    · exact .refused
    · split
      · exact .exits rfl
      · rename_i hnew
        simp only [Bool.or_eq_true, not_or, Bool.not_eq_true] at hnew
        exact .keySet key hnew.1
  | start =>
    rw [controlRead]
    simp only
    split
    · exact .refused
    · split
      · split
        · exact .exits rfl
        · exact .refused
      · rename_i hready
        simp only [Bool.or_eq_true, not_or, Bool.not_eq_true, Option.isNone_eq_false_iff] at hready
        split
        · exact .exits rfl
        · split
          · exact .exits rfl
          · exact .started hready.1.2 hready.2
  | bad =>
    rw [controlRead]
    split
    · exact .refused
    · exact .exits rfl

/-! ### Defined behaviour -/

theorem blockMake_isSome (hlist : inst.transactionList.isSome = true)
    (hkey : inst.privateKey.isSome = true) :
    (CanonizationService.blockMake B o inst).isSome = true := by
  obtain ⟨txns, hlist⟩ := Option.isSome_iff_exists.mp hlist
  obtain ⟨key, hkey⟩ := Option.isSome_iff_exists.mp hkey
  unfold CanonizationService.blockMake
  rw [hlist]
  cases txns with
  | nil => rfl
  | cons txn rest =>
    simp only [hkey]
    split
    · rfl
    · split
      · rfl
      · split
        · rfl
        · rfl

theorem collectTransaction_isSome (hlist : inst.transactionList.isSome = true)
    (hkey : inst.privateKey.isSome = true) (txn : Transaction) :
    (collectTransaction B o inst txn).isSome = true := by
  obtain ⟨txns, hlist⟩ := Option.isSome_iff_exists.mp hlist
  unfold collectTransaction
  split
  · rfl
  · rw [hlist]
    simp only
    split
    · rfl
    · split
      · exact blockMake_isSome rfl hkey
      · split
        · exact blockMake_isSome rfl hkey
        · rfl

/-- A round that has its list and its key never uses a null pointer. -/
theorem dataRead_isSome (hlist : inst.transactionList.isSome = true)
    (hkey : inst.privateKey.isSome = true) :
    (CanonizationService.dataRead E B o inst resp).isSome = true := by
  unfold CanonizationService.dataRead
  split
  · rfl
  split
  · rfl
  split
  · rw [responseChildContextClose, Option.isSome_map]
    exact hlist
  split
  · unfold responseTransactionFirstRead
    split
    · split
      · rfl
      · exact collectTransaction_isSome hlist hkey _
    · rfl
    · rfl
  split
  · unfold responseTransactionRead
    split
    · split
      · exact blockMake_isSome hlist hkey
      · exact collectTransaction_isSome hlist hkey _
    · exact blockMake_isSome hlist hkey
    · rfl
  split
  · rfl
  split
  · rfl
  split
  · rfl
  · rfl

end Callbacks

end RoundTurns
