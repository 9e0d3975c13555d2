import PubkySwap.ClientHistoryVerdict
import PubkySwap.HtlcSpend

/-!
# Whether a record can spend its HTLC

A record that is ready is driven from what it says and from nothing else: `resume` takes
the redeem script from one field and derives the output script from another.  The
acceptance of a negotiated swap fills both from one contract.  A restore fills them by the
contract type of the listing, and for a Taproot contract leaves the redeem script empty.

`spends_iff_p2wsh`: over every history, a ready record can spend its HTLC exactly when its
acceptance names P2WSH.  What is built from a Taproot record spends the right output with a
witness that no node accepts, whatever node it is, and the witness has the preimage in it:
`restored_taproot_is_stuck`.
-/

namespace PubkySwap

open BitcoinScript (Bytes InputContext)

section

variable [Crypto] [ClientCrates]

/-! ## What resuming builds -/

/-- **A spend that resuming a record builds**: of which output, what the signature takes it
to be worth, and the transaction. -/
inductive SwapRecord.Builds (rec : SwapRecord) : OutPoint → ℕ → Transaction → Prop
  | claim {claim : ReverseClaim} {funding : FundingUtxo} {poll rate : ℕ} {tx : Transaction}
      (hdirection : rec.direction = .reverse) (hclaim : reverseClaimFromRecord rec = .ok claim)
      (hbuild : (claim.claimJob (reverseResume rec) funding poll).build rate = .ok tx) :
      Builds rec funding.outpoint funding.valueSat tx
  | refund {funding : SubmarineFunding} {outpoint : OutPoint} {dest : Bytes} {poll rate : ℕ}
      {tx : Transaction} (hdirection : rec.direction = .submarine)
      (hfunding : submarineFundingFromRecord rec = .ok funding)
      (hbuild : (funding.refundJob rec.resume outpoint dest poll).build rate = .ok tx) :
      Builds rec outpoint funding.onchainAmountSat tx

/-- **A record can spend its HTLC**: it reads back as a swap to drive, and a node accepts
whatever is built from it as a spend of the record's output script. -/
structure SpendsItsHtlc (node : Consensus) (rec : SwapRecord) : Prop where
  claims : rec.direction = .reverse → ∃ claim, reverseClaimFromRecord rec = .ok claim
  refunds : rec.direction = .submarine → ∃ funding, submarineFundingFromRecord rec = .ok funding
  accepted : ∀ outpoint valueSat tx, rec.Builds outpoint valueSat tx →
    tx.Spends outpoint ∧ ∃ spk, rec.htlcSpk = .ok spk ∧
      node.accepts tx [⟨valueSat, spk⟩] 0 = true

/-- What the key crate promises a wallet: a secret key is read back from its bytes, it is
the one of its public key, and an input that there is has a digest. -/
structure Consensus.ReadsKeys (node : Consensus) : Prop where
  secretKey : ∀ key : SecretKey, ClientCrates.secretKeyFromSlice key.val = .ok key
  ownKey : ∀ key, node.ownKey key (ClientCrates.publicKey key)
  digest : ∀ tx index script value, index < tx.input.length →
    ∃ digest, Crypto.p2wshSignatureHash tx index script value = .ok digest

/-! ## What a ready record holds -/

/-- The contract of a record: the redeem script, or what the Taproot contract is rebuilt
from. -/
inductive HoldsContract (rec : SwapRecord) (hash : PaymentHash) (key : SecretKey)
    (provider : PublicKey) : SwapScript → Prop
  | p2wsh (htaproot : rec.taproot = none)
      (hscript : rec.htlcScriptHex = Hex.encode (buildHtlcScript hash
        (branchKeys rec.direction (ClientCrates.publicKey key) provider).1
        (branchKeys rec.direction (ClientCrates.publicKey key) provider).2 rec.timeoutHeight)) :
      HoldsContract rec hash key provider .p2wsh
  | taproot {contract : BoltzTaprootSwap} (hdirection : rec.direction = .reverse)
      (hnew : BoltzTaprootSwap.new .reverse hash (ClientCrates.publicKey key) provider
        rec.timeoutHeight = .ok contract)
      (htaproot : rec.taproot = some contract.parameters) (hscript : rec.htlcScriptHex = "") :
      HoldsContract rec hash key provider .taprootBoltz

/-- **What a ready record holds**: its acceptance, what it signs with, and the contract. -/
structure Executable (rec : SwapRecord) (accept : SwapAccept) (hash : PaymentHash)
    (key : SecretKey) (provider : PublicKey) : Prop where
  replied : rec.swapAccept = some accept
  hashed : rec.paymentHash = .ok hash
  signs : rec.secretKey = .ok key
  secrets : rec.direction = .reverse → ∃ preimage destSpk,
    rec.preimageHex = some (Hex.encode preimage.val) ∧ paymentHash preimage = hash ∧
      rec.destSpkHex = some (Hex.encode destSpk)
  contract : HoldsContract rec hash key provider accept.scriptType

variable {node : Consensus} {rec : SwapRecord} {accept : SwapAccept} {hash : PaymentHash}
  {key : SecretKey} {provider : PublicKey}

theorem secretKey_of_decode (hnode : node.ReadsKeys)
    (h : Hex.decode rec.secretKeyHex = some key.val) : rec.secretKey = .ok key := by
  unfold SwapRecord.secretKey
  rw [h]
  show (ClientCrates.secretKeyFromSlice key.val).mapError _ = _
  rw [hnode.secretKey]
  rfl

/-- A record that a restore builds is executable. -/
theorem executable_of_reverseRecord (hnode : node.ReadsKeys) {target : Restore} {peer : String}
    {snapshot : SwapStatusSnapshot} {keys : RestoredKeys}
    (h : reverseRecord target peer snapshot keys = .ok rec) :
    ∃ hash provider, Executable rec snapshot.accept hash keys.branchKey provider := by
  unfold reverseRecord at h
  obtain ⟨preimage, -, h⟩ := bind_eq_ok h
  dsimp only at h
  split at h
  · cases h
  split at h
  · cases h
  obtain ⟨_, -, h⟩ := bind_eq_ok h
  obtain ⟨provider, -, h⟩ := bind_eq_ok h
  obtain ⟨⟨htlcScriptHex, taproot⟩, hcontract, h⟩ := bind_eq_ok h
  obtain ⟨invoice, -, h⟩ := bind_eq_ok h
  cases h
  refine ⟨paymentHash preimage, provider, rfl, paymentHash_of_hex rfl,
    secretKey_of_decode hnode (Hex.decode_encode _),
    fun _ => ⟨preimage, target.destSpk, rfl, rfl, rfl⟩, ?_⟩
  unfold restoredContract at hcontract
  cases htype : snapshot.accept.scriptType with
  | p2wsh =>
      rw [htype] at hcontract
      cases hcontract
      exact .p2wsh rfl rfl
  | taprootBoltz =>
      rw [htype] at hcontract
      obtain ⟨contract, hnew, hcontract⟩ := bind_eq_ok hcontract
      cases hcontract
      exact .taproot rfl (mapError_eq_ok.mp hnew) rfl rfl

/-- A negotiated record that is ready is executable, and a P2WSH one. -/
theorem executable_of_contracted (hnode : node.ReadsKeys)
    {decode : String → Option DecodedHoldInvoice}
    {calls : List ClientCall} {quotes : List (QuoteRequest × Quote)} (hcontract : Contracted rec)
    (hready : rec.clientExecutionReady = true)
    (hreverse : rec.direction = .reverse → ∃ quote floor preimage,
      NegotiatedRecord decode calls quotes rec quote floor preimage) :
    ∃ accept hash key provider, Executable rec accept hash key provider := by
  obtain ⟨accept, script, haccept, htimeout, hhex, hscript, destSpk, hdest⟩ :=
    hcontract.ready hready
  obtain ⟨hash, key, provider, hhash, hkey, htype, rfl⟩ := hscript
  have hsigns : rec.secretKey = .ok key :=
    hkey.elim id fun hdecode => secretKey_of_decode hnode hdecode
  refine ⟨accept, hash, key, provider, haccept, hhash, hsigns, fun hdirection => ?_, ?_⟩
  · obtain ⟨_, _, preimage, hrec⟩ := hreverse hdirection
    refine ⟨preimage, destSpk, hrec.preimageHex, ?_, hdest⟩
    exact Except.ok.inj ((paymentHash_of_hex hrec.hashHex).symm.trans hhash)
  · rw [htype]
    exact .p2wsh hcontract.taproot (by rw [hhex, htimeout])

theorem HoldsContract.of_terms {old : SwapRecord} {scriptType : SwapScript}
    (h : HoldsContract old hash key provider scriptType) (hterms : rec.terms = old.terms) :
    HoldsContract rec hash key provider scriptType := by
  have hview (rec : SwapRecord) : HoldsContract rec.terms hash key provider scriptType ↔
      HoldsContract rec hash key provider scriptType := by
    constructor
    · rintro (⟨htaproot, hscript⟩ | ⟨hdirection, hnew, htaproot, hscript⟩)
      · exact .p2wsh htaproot hscript
      · exact .taproot hdirection hnew htaproot hscript
    · rintro (⟨htaproot, hscript⟩ | ⟨hdirection, hnew, htaproot, hscript⟩)
      · exact .p2wsh htaproot hscript
      · exact .taproot hdirection hnew htaproot hscript
  rw [← hview, hterms, hview]
  exact h

theorem Executable.of_terms {old : SwapRecord} (h : Executable old accept hash key provider)
    (hterms : rec.terms = old.terms) : Executable rec accept hash key provider := by
  have hview : Executable rec.terms accept hash key provider := by
    rw [hterms]
    exact ⟨h.replied, h.hashed, h.signs, h.secrets, h.contract.of_terms rfl⟩
  exact ⟨hview.replied, hview.hashed, hview.signs, hview.secrets, hview.contract.of_terms rfl⟩

/-- **Every ready record is executable**, but for those of an older build. -/
theorem executable_of_history (hnode : node.ReadsKeys) {decode : String → Option DecodedHoldInvoice}
    {legacy : List SwapRecord} {calls : List ClientCall} {w : ClientWorld} {swapId : Uuid}
    (h : History decode legacy calls w) (hstore : w.store swapId = some rec)
    (hready : rec.clientExecutionReady = true) (hown : ¬Inherited legacy rec) :
    ∃ accept hash key provider, Executable rec accept hash key provider := by
  rcases (kept_of_history h).sourced swapId rec hstore with
    ⟨-, hcontract, hreverse⟩ | ⟨-, hrebuilt | hinherited⟩
  · obtain ⟨accept, hash, key, provider, hexec⟩ :=
      executable_of_contracted hnode hcontract hready hreverse
    exact ⟨accept, hash, key, provider, hexec.of_terms rfl⟩
  · obtain ⟨target, peer, _, _, snapshot, keys, listed, -, -, -, hlisted, hterms⟩ := hrebuilt
    obtain ⟨hash, provider, hexec⟩ := executable_of_reverseRecord hnode hlisted
    exact ⟨snapshot.accept, hash, keys.branchKey, provider, hexec.of_terms hterms⟩
  · exact absurd hinherited hown

/-! ## What is built from it -/

/-- A record whose texts can be read is read back as a claim. -/
theorem reverseClaimFromRecord_eq {preimage : Preimage} {destSpk script spk : Bytes}
    (hpreimage : rec.preimageHex = some (Hex.encode preimage.val))
    (hdest : rec.destSpkHex = some (Hex.encode destSpk)) (hscript : rec.htlcScript = .ok script)
    (hspk : rec.htlcSpk = .ok spk) (hkey : rec.secretKey = .ok key) :
    reverseClaimFromRecord rec = .ok
      { htlcScript := script
        htlcSpk := spk
        onchainAmountSat := rec.onchainAmountSat
        timeoutHeight := rec.timeoutHeight
        invoice := rec.invoice
        preimage := preimage
        claimKey := key
        destSpk := destSpk
        feeRateSatVb := rec.feeRateSatVb } := by
  unfold reverseClaimFromRecord
  rw [hpreimage, hdest, hscript, hspk, hkey]
  simp only [okOr, bind, Except.bind, Hex.decode_encode, dif_pos preimage.property]

theorem submarineFundingFromRecord_eq {script spk : Bytes} (hscript : rec.htlcScript = .ok script)
    (hspk : rec.htlcSpk = .ok spk) (hhash : rec.paymentHash = .ok hash)
    (hkey : rec.secretKey = .ok key) :
    submarineFundingFromRecord rec = .ok
      { htlcScript := script
        htlcSpk := spk
        onchainAmountSat := rec.onchainAmountSat
        paymentHash := hash
        refundKey := key
        timeoutHeight := rec.timeoutHeight
        feeRateSatVb := rec.feeRateSatVb } := by
  unfold submarineFundingFromRecord
  rw [hscript, hspk, hhash, hkey]
  rfl

/-- A claim spends the output it was built for. -/
theorem spends_of_builds {outpoint : OutPoint} {valueSat : ℕ} {tx : Transaction}
    (h : rec.Builds outpoint valueSat tx) : tx.Spends outpoint := by
  cases h with
  | claim _ _ hbuild => exact buildHtlcSpend_spends hbuild
  | refund _ _ hbuild => exact buildHtlcSpend_spends hbuild

/-- **A P2WSH record can spend its HTLC.** -/
theorem Executable.spends_of_p2wsh (hnode : node.Follows) (hkeys : node.ReadsKeys)
    (h : Executable rec accept hash key provider) (htype : accept.scriptType = .p2wsh)
    (htimeout : rec.timeoutHeight < 2 ^ 32) : SpendsItsHtlc node rec := by
  obtain ⟨-, hhash, hkey, hsecrets, hcontract⟩ := h
  rw [htype] at hcontract
  cases hcontract with
  | p2wsh htaproot hhex =>
      generalize hscripteq : buildHtlcScript hash _ _ rec.timeoutHeight = script at hhex
      have hscript : rec.htlcScript = .ok script := by
        rw [SwapRecord.htlcScript, hhex, Hex.decode_encode]
        rfl
      have hspk : rec.htlcSpk = .ok (htlcP2wshScriptPubkey script) := by
        rw [SwapRecord.htlcSpk, htaproot, hscript]
        rfl
      refine ⟨fun hdirection => ?_, fun _ => ?_, fun outpoint valueSat tx hbuilds => ?_⟩
      · obtain ⟨preimage, destSpk, hpreimage, -, hdest⟩ := hsecrets hdirection
        exact ⟨_, reverseClaimFromRecord_eq hpreimage hdest hscript hspk hkey⟩
      · exact ⟨_, submarineFundingFromRecord_eq hscript hspk hhash hkey⟩
      · refine ⟨spends_of_builds hbuilds, _, hspk, ?_⟩
        cases hbuilds with
        | claim hdirection hclaim hbuild =>
            obtain ⟨preimage, destSpk, hpreimage, hhashes, hdest⟩ := hsecrets hdirection
            rw [reverseClaimFromRecord_eq hpreimage hdest hscript hspk hkey] at hclaim
            cases hclaim
            rw [hdirection] at hscripteq
            subst hscripteq
            exact accepts_htlcClaim hnode htimeout hbuild (hkeys.ownKey key) hhashes
        | refund hdirection hfunding hbuild =>
            rw [submarineFundingFromRecord_eq hscript hspk hhash hkey] at hfunding
            cases hfunding
            rw [hdirection] at hscripteq
            subst hscripteq
            exact accepts_htlcRefund hnode hbuild (hkeys.ownKey key)

/-! ## Taproot records -/

omit [Crypto] [ClientCrates] in
/-- A witness that ends with an empty string, after three others, opens no output. -/
theorem acceptsOutput_claim_empty {ctx : InputContext} {outputKey sig : Bytes}
    {preimage : Preimage} :
    ctx.acceptsOutput (0x51 :: 0x20 :: outputKey) (htlcWitness (.claim preimage) sig []) =
      false := by
  have hwitness : InputContext.withoutAnnex (htlcWitness (.claim preimage) sig []) =
      [[], [1], preimage.val, sig] := rfl
  have hleaf : ctx.acceptsLeaf outputKey (htlcWitness (.claim preimage) sig []) = false := by
    unfold InputContext.acceptsLeaf
    rw [hwitness]
    rfl
  have hkeyPath : ctx.acceptsKeyPath outputKey (htlcWitness (.claim preimage) sig []) = false := by
    unfold InputContext.acceptsKeyPath
    rw [hwitness]
  show (decide _ && (_ || _)) = false
  rw [hleaf, hkeyPath, Bool.or_self, Bool.and_false]

/-- **No node accepts what is built from a Taproot record**, and something is built. -/
theorem Executable.stuck_of_taproot (hdigest : ∀ tx index script value, index < tx.input.length →
      ∃ digest, Crypto.p2wshSignatureHash tx index script value = .ok digest)
    (h : Executable rec accept hash key provider) (htype : accept.scriptType = .taprootBoltz) :
    (∃ outpoint valueSat tx, rec.Builds outpoint valueSat tx) ∧
      ∀ outpoint valueSat tx, rec.Builds outpoint valueSat tx → ∀ node : Consensus, ∀ spk,
        rec.htlcSpk = .ok spk → node.accepts tx [⟨valueSat, spk⟩] 0 = false := by
  obtain ⟨-, -, hkey, hsecrets, hcontract⟩ := h
  rw [htype] at hcontract
  cases hcontract with
  | @taproot contract hdirection hnew htaproot hhex =>
      obtain ⟨preimage, destSpk, hpreimage, -, hdest⟩ := hsecrets hdirection
      have hscript : rec.htlcScript = .ok [] := by
        rw [SwapRecord.htlcScript, hhex]
        rfl
      have hspk : rec.htlcSpk = .ok contract.scriptPubkey := by
        obtain ⟨-, hparameters, -⟩ := BoltzTaprootSwap.new_eq_ok hnew
        rw [SwapRecord.htlcSpk, htaproot]
        dsimp only
        rw [hparameters]
        dsimp only
        rw [hnew]
      have hclaim := reverseClaimFromRecord_eq hpreimage hdest hscript hspk hkey
      constructor
      · obtain ⟨sighash, hsighash⟩ := hdigest (unsignedSpend ⟨0, 0⟩ dustThreshold destSpk 0) 0 []
          dustThreshold Nat.one_pos
        have hspend : HtlcSpend ⟨0, 0⟩ dustThreshold [] destSpk 0 0 (.claim preimage) key 0 sighash
            ((unsignedSpend ⟨0, 0⟩ dustThreshold destSpk 0).withWitness
              (htlcWitness (.claim preimage) (serializeEcdsa sighash key) [])) :=
          ⟨by decide, le_refl _, rfl, hsighash, rfl⟩
        exact ⟨_, _, _, @SwapRecord.Builds.claim _ _ rec _ ⟨⟨0, 0⟩, dustThreshold, 0⟩ 0 0 _
          hdirection hclaim hspend.build⟩
      · intro outpoint valueSat tx hbuilds node spk hspk'
        obtain rfl := Except.ok.inj (hspk.symm.trans hspk')
        cases hbuilds with
        | refund hsubmarine => exact absurd (hdirection.symm.trans hsubmarine) nofun
        | @claim _ funding _ _ _ _ hclaim' hbuild =>
            rw [hclaim] at hclaim'
            cases hclaim'
            obtain ⟨lockTime, sighash, hspend⟩ := htlcSpend_of_build hbuild
            rw [Bool.eq_false_iff]
            intro haccepts
            have hinput : tx.input[0]? = some ⟨funding.outpoint, [], enableRbfNoLocktime,
                htlcWitness (.claim preimage) (serializeEcdsa sighash key) []⟩ := by
              rw [hspend.tx_eq, input_unsignedSpend]
              rfl
            obtain ⟨-, hout⟩ := (Consensus.accepts_iff hinput rfl).mp haccepts
            rw [BoltzTaprootSwap.scriptPubkey, acceptsOutput_claim_empty] at hout
            cases hout

/-! ## Every ready record -/

/-- **A ready record can spend its HTLC exactly when its acceptance names P2WSH.** -/
theorem spends_iff_p2wsh (hnode : node.Follows) (hkeys : node.ReadsKeys)
    {decode : String → Option DecodedHoldInvoice} {legacy : List SwapRecord}
    {calls : List ClientCall} {w : ClientWorld} {swapId : Uuid} (h : History decode legacy calls w)
    (hstore : w.store swapId = some rec) (hready : rec.clientExecutionReady = true)
    (hown : ¬Inherited legacy rec) (htimeout : rec.timeoutHeight < 2 ^ 32) :
    SpendsItsHtlc node rec ↔
      ∃ accept, rec.swapAccept = some accept ∧ accept.scriptType = .p2wsh := by
  obtain ⟨accept, hash, key, provider, hexec⟩ := executable_of_history hkeys h hstore hready hown
  constructor
  · intro hspends
    refine ⟨accept, hexec.replied, ?_⟩
    cases htype : accept.scriptType with
    | p2wsh => rfl
    | taprootBoltz =>
        obtain ⟨⟨outpoint, valueSat, tx, hbuilds⟩, hstuck⟩ :=
          hexec.stuck_of_taproot hkeys.digest htype
        obtain ⟨-, spk, hspk, haccepts⟩ := hspends.accepted _ _ _ hbuilds
        rw [hstuck _ _ _ hbuilds node spk hspk] at haccepts
        cases haccepts
  · rintro ⟨named, hnamed, htype⟩
    obtain rfl : named = accept := Option.some.inj (hnamed.symm.trans hexec.replied)
    exact hexec.spends_of_p2wsh hnode hkeys htype htimeout

end

/-! ## Two restored records -/

namespace RestoredContract

open ListingTrusted (snapshot restore keys)

local instance tables : Crypto := KnownHtlc.crates

local instance crates : ClientCrates := plainCrates

/-- The world after a wallet was restored from a listing. -/
def restored (scriptType : SwapScript) : ClientWorld :=
  ((restore (snapshot scriptType "agreed" 2)).program 1).play ListingTrusted.outside
    ⟨fun _ => none, [], []⟩

theorem history_restored (scriptType : SwapScript) :
    History ListingTrusted.decode [] [restore (snapshot scriptType "agreed" 2)]
      (restored scriptType) :=
  have hempty (swapId : Uuid) (rec : SwapRecord) (h : (none : Option SwapRecord) = some rec) :
      rec.swapId = swapId ∧ rec ∈ [] ∧ rec.swapRequest = none := by cases h
  .call (.start (fun _ => none) hempty) (restore (snapshot scriptType "agreed" 2)) 1
    (fun _ h => by cases h)
    (reaches_play ListingTrusted.faithful ((restore (snapshot scriptType "agreed" 2)).program 1) _)

theorem readsKeys : KnownHtlc.node.ReadsKeys where
  secretKey key := dif_pos key.property
  ownKey _ := rfl
  digest _ _ script _ _ := ⟨KnownHtlc.digest script, rfl⟩

/-- What the restore left of the swap. -/
def record (scriptType : SwapScript) : SwapRecord := ((restored scriptType).store 7).getD {}

theorem stored_record (scriptType : SwapScript) :
    (restored scriptType).store 7 = some (record scriptType) ∧
      (record scriptType).clientExecutionReady = true ∧
      (record scriptType).timeoutHeight = 800100 ∧
      (record scriptType).swapAccept = some (snapshot scriptType "agreed" 2).accept := by
  cases scriptType with
  | p2wsh => decide +kernel
  | taprootBoltz => decide +kernel

/-- **A restored Taproot record is stuck**: it is ready, and no node accepts what is built
from it. -/
theorem restored_taproot_is_stuck :
    History ListingTrusted.decode [] [restore (snapshot .taprootBoltz "agreed" 2)]
        (restored .taprootBoltz) ∧
      (restored .taprootBoltz).store 7 = some (record .taprootBoltz) ∧
      (record .taprootBoltz).clientExecutionReady = true ∧
      (∃ outpoint valueSat tx, (record .taprootBoltz).Builds outpoint valueSat tx) ∧
      ∀ node : Consensus, ¬SpendsItsHtlc node (record .taprootBoltz) := by
  obtain ⟨hstore, hready, -, haccept⟩ := stored_record .taprootBoltz
  obtain ⟨accept, hash, key, provider, hexec⟩ :=
    executable_of_history readsKeys (history_restored .taprootBoltz) hstore hready
      (by simp [Inherited])
  obtain rfl := Option.some.inj (hexec.replied.symm.trans haccept)
  obtain ⟨hsome, hstuck⟩ := hexec.stuck_of_taproot readsKeys.digest rfl
  refine ⟨history_restored _, hstore, hready, hsome, fun node hspends => ?_⟩
  obtain ⟨outpoint, valueSat, tx, hbuilds⟩ := hsome
  obtain ⟨-, spk, hspk, haccepts⟩ := hspends.accepted _ _ _ hbuilds
  rw [hstuck _ _ _ hbuilds node spk hspk] at haccepts
  cases haccepts

/-- The general statement at the same listing of a P2WSH contract. -/
theorem restored_p2wsh_spends : SpendsItsHtlc KnownHtlc.node (record .p2wsh) := by
  obtain ⟨hstore, hready, htimeout, haccept⟩ := stored_record .p2wsh
  have hlt : (record .p2wsh).timeoutHeight < 2 ^ 32 := by
    rw [htimeout]
    decide
  exact (spends_iff_p2wsh KnownHtlc.node_follows readsKeys (history_restored .p2wsh) hstore hready
    (by simp [Inherited]) hlt).mpr ⟨_, haccept, rfl⟩

end RestoredContract

end PubkySwap
