import PubkySwap.ScriptRun
import PubkySwap.Lib.WitnessProgram

/-!
# Who can spend an HTLC

The two kinds of HTLC an output can be locked under, and the transactions the program
builds to spend them, against the rules a node applies.

The rules need what neither the script nor the program knows: whether a signature is
good, what a transaction's digest is, how an output key commits to its leaves.  That is
`Consensus`, and `Consensus.Follows` says what the crates that sign and commit promise
about it.  Whether a signature is good is an arbitrary predicate, so nothing here depends
on how signatures work.

Spending is read in both directions.  `authorized_of_spentBy` bounds it from above:
whatever the witness, it carries the claim key's signature and a preimage, or the refund
key's signature after the timeout.  `accepts_of_built` bounds it from below: what the
program builds with the right key is accepted.
-/

namespace PubkySwap

open BitcoinScript

/-! ## Nodes -/

/-- **What a node decides** besides the rules of Script. -/
structure Consensus where
  tapHashes : TapHashes
  /-- Of a transaction and one of its inputs, the witness script, the value that is spent,
  a signature and a key; none when the signature's encoding already fails the script. -/
  checkEcdsa : Transaction → ℕ → Bytes → ℕ → Bytes → Bytes → Option Bool
  /-- Of a transaction and one of its inputs, the outputs that are spent, the leaf, a
  signature and a key. -/
  checkSchnorr : Transaction → ℕ → List TxOut → Bytes → Bytes → Bytes → Option Bool
  /-- The same without a leaf, for the output key. -/
  checkKeyPath : Transaction → ℕ → List TxOut → Bytes → Bytes → Bool
  /-- Whether a secret key is the one of a public key, in either form. -/
  ownKey : SecretKey → PublicKey → Prop

section

variable [Crypto]

/-- What a node knows of an input and of the output it spends. -/
def Consensus.inputContext (node : Consensus) (tx : Transaction) (prevouts : List TxOut)
    (index : ℕ) (input : TxIn) (out : TxOut) : InputContext where
  sha256 bytes := (Crypto.sha256 bytes).val
  ripemd160 bytes := (Crypto.ripemd160 bytes).val
  tapHashes := node.tapHashes
  checkEcdsa script := node.checkEcdsa tx index script out.value
  checkSchnorr script := node.checkSchnorr tx index prevouts script
  checkKeyPath := node.checkKeyPath tx index prevouts
  lockTime := tx.lockTime
  sequence := input.sequence

/-- **Whether a node accepts an input**, given the outputs the transaction spends. -/
def Consensus.accepts (node : Consensus) (tx : Transaction) (prevouts : List TxOut)
    (index : ℕ) : Bool :=
  match tx.input[index]?, prevouts[index]? with
  | some input, some out =>
      input.scriptSig = [] &&
        (node.inputContext tx prevouts index input out).acceptsOutput out.scriptPubkey input.witness
  | _, _ => false

/-- **What the crates promise**: a signature over a digest is good for the signing key,
whatever witness the transaction is given afterwards, and the control blocks of a tree of
two leaves are what the tagged hashes say. -/
structure Consensus.Follows (node : Consensus) : Prop where
  ecdsa : ∀ tx index script value digest key pubkey witness,
    Crypto.p2wshSignatureHash tx index script value = .ok digest → node.ownKey key pubkey →
    node.checkEcdsa (tx.withWitness witness) index script value (serializeEcdsa digest key)
      pubkey.serialized = some true
  derLength : ∀ digest key, (Crypto.signEcdsa digest key).length ≤ 72
  schnorr : ∀ tx index prevouts script digest key witness,
    Crypto.taprootSignatureHash tx index prevouts (Crypto.tapLeafHash script) = .ok digest →
    node.checkSchnorr (tx.withWitness witness) index prevouts script
      (Crypto.signSchnorr digest key).val (Crypto.xOnlyPublicKey key).val = some true
  nodeLength : ∀ tapNode, (node.tapHashes.node tapNode).length = 32
  tweak : ∀ internalKey a b info,
    Crypto.finalizeTaproot internalKey [(1, a), (1, b)] = .ok info → a ≠ b →
    ∃ parity, (parity = 0 ∨ parity = 1) ∧
      node.tapHashes.tweak internalKey.val
        (node.tapHashes.root (.leaf 0xc0 a) [node.tapHashes.node (.leaf 0xc0 b)]) =
          some (info.outputKey.val, parity) ∧
      (∀ control, info.controlBlock a = some control → control.val =
        (0xc0 ||| parity) :: (internalKey.val ++ node.tapHashes.node (.leaf 0xc0 b))) ∧
      (∀ control, info.controlBlock b = some control → control.val =
        (0xc0 ||| parity) :: (internalKey.val ++ node.tapHashes.node (.leaf 0xc0 a)))

/-! ## Contracts -/

/-- The two branches of an HTLC. -/
inductive Branch where
  | claim
  | refund
  deriving DecidableEq, Repr

omit [Crypto] in
/-- The branch a spend takes. -/
def SpendPath.branch : SpendPath → Branch
  | claim _ => .claim
  | refund => .refund

/-- The leaf of a branch. -/
def BoltzTaprootSwap.branchLeaf (contract : BoltzTaprootSwap) : Branch → Bytes
  | .claim => contract.claimScript
  | .refund => contract.refundScript

/-- **An HTLC an output is locked under**: the P2WSH script, whose timeout is a block
height, or a Taproot contract that its constructor has accepted. -/
inductive LockedHtlc where
  | p2wsh (paymentHash : PaymentHash) (claim refund : PublicKey) (timeout : ℕ)
      (htimeout : timeout < lockTimeThreshold)
  | taproot (direction : SwapDirection) (paymentHash : PaymentHash) (claim refund : PublicKey)
      (timeout : ℕ) (contract : BoltzTaprootSwap)
      (hnew : BoltzTaprootSwap.new direction paymentHash claim refund timeout = .ok contract)

namespace LockedHtlc

def paymentHash : LockedHtlc → PaymentHash
  | p2wsh paymentHash .. => paymentHash
  | taproot _ paymentHash .. => paymentHash

def timeout : LockedHtlc → ℕ
  | p2wsh _ _ _ timeout _ => timeout
  | taproot _ _ _ _ timeout .. => timeout

/-- The public key of a branch. -/
def branchKey : LockedHtlc → Branch → PublicKey
  | p2wsh _ claim _ _ _, .claim => claim
  | p2wsh _ _ refund _ _, .refund => refund
  | taproot _ _ claim _ _ _ _, .claim => claim
  | taproot _ _ _ refund _ _ _, .refund => refund

def scriptPubkey : LockedHtlc → Bytes
  | p2wsh paymentHash claim refund timeout _ =>
      htlcP2wshScriptPubkey (buildHtlcScript paymentHash claim refund timeout)
  | taproot _ _ _ _ _ contract _ => contract.scriptPubkey

/-- Spending an output of the HTLC; by a leaf, if it is a Taproot one. -/
structure SpentBy (htlc : LockedHtlc) (node : Consensus) (tx : Transaction)
    (prevouts : List TxOut) (index : ℕ) (input : TxIn) (out : TxOut) : Prop where
  spending : tx.input[index]? = some input
  spent : prevouts[index]? = some out
  locked : out.scriptPubkey = htlc.scriptPubkey
  accepted : node.accepts tx prevouts index = true
  byLeaf : ∀ outputKey, out.scriptPubkey = 0x51 :: 0x20 :: outputKey →
    (node.inputContext tx prevouts index input out).acceptsKeyPath outputKey input.witness = false

/-- A signature that is good for a key, over the script of the branch. -/
def Signed (htlc : LockedHtlc) (node : Consensus) (tx : Transaction) (prevouts : List TxOut)
    (index : ℕ) (out : TxOut) (branch : Branch) (sig : Bytes) : Prop :=
  match htlc with
  | p2wsh paymentHash claim refund timeout _ =>
      node.checkEcdsa tx index (buildHtlcScript paymentHash claim refund timeout) out.value sig
        (htlc.branchKey branch).serialized = some true
  | taproot _ _ _ _ _ contract _ =>
      node.checkSchnorr tx index prevouts (contract.branchLeaf branch) sig
        (htlc.branchKey branch).xOnly.val = some true

/-- **What every spend has to carry**: a signature of the claim key and a string with the
payment hash, or a signature of the refund key in a transaction that the timeout lets in. -/
def Authorized (htlc : LockedHtlc) (node : Consensus) (tx : Transaction)
    (prevouts : List TxOut) (index : ℕ) (input : TxIn) (out : TxOut) : Prop :=
  (∃ sig ∈ input.witness, ∃ x ∈ input.witness,
    htlc.Signed node tx prevouts index out .claim sig ∧ Crypto.sha256 x = htlc.paymentHash) ∨
  ∃ sig ∈ input.witness, htlc.Signed node tx prevouts index out .refund sig ∧
    htlc.timeout ≤ tx.lockTime ∧ tx.lockTime < lockTimeThreshold ∧ input.sequence ≠ 0xffffffff

/-- No hash of the spend collides with one of the contract. -/
inductive NoCollision (node : Consensus) (witness : List Bytes) : LockedHtlc → Prop where
  | p2wsh {paymentHash : PaymentHash} {claim refund : PublicKey} {timeout : ℕ}
      {htimeout : timeout < lockTimeThreshold}
      (hscript : ∀ script ∈ witness, Crypto.sha256 script =
        Crypto.sha256 (buildHtlcScript paymentHash claim refund timeout) →
          script = buildHtlcScript paymentHash claim refund timeout) :
      NoCollision node witness (.p2wsh paymentHash claim refund timeout htimeout)
  | taproot {direction : SwapDirection} {paymentHash : PaymentHash} {claim refund : PublicKey}
      {timeout : ℕ} {contract : BoltzTaprootSwap}
      {hnew : BoltzTaprootSwap.new direction paymentHash claim refund timeout = .ok contract}
      (hproof : ∀ bytes ∈ witness, ∀ script ∈ witness, ∀ control internalKey,
        Control.read bytes = some control →
        aggregateInternalKey direction claim refund = .ok internalKey →
        node.tapHashes.Clean internalKey.val contract.claimScript contract.refundScript control
          script)
      (hhash : ∀ x ∈ witness, Crypto.ripemd160 (Crypto.sha256 x).val =
        Crypto.ripemd160 paymentHash.val → Crypto.sha256 x = paymentHash) :
      NoCollision node witness (.taproot direction paymentHash claim refund timeout contract hnew)

/-- **The spends the program builds**: `build_htlc_spend` on the redeem script, with the
contract's timeout for the refund, and the Taproot contract's own two. -/
inductive Built : LockedHtlc → OutPoint → ℕ → Bytes → ℕ → SpendPath → SecretKey → Transaction → Prop
  | htlcClaim {paymentHash : PaymentHash} {claim refund : PublicKey} {timeout : ℕ}
      {htimeout : timeout < lockTimeThreshold} {outpoint : OutPoint} {valueSat : ℕ}
      {destination : Bytes} {feeSat anyTimeout : ℕ} {preimage : Preimage} {key : SecretKey}
      {tx : Transaction}
      (h : buildHtlcSpend outpoint valueSat (buildHtlcScript paymentHash claim refund timeout)
        destination feeSat anyTimeout (.claim preimage) key = .ok tx) :
      Built (.p2wsh paymentHash claim refund timeout htimeout) outpoint valueSat destination feeSat
        (.claim preimage) key tx
  | htlcRefund {paymentHash : PaymentHash} {claim refund : PublicKey} {timeout : ℕ}
      {htimeout : timeout < lockTimeThreshold} {outpoint : OutPoint} {valueSat : ℕ}
      {destination : Bytes} {feeSat : ℕ} {key : SecretKey} {tx : Transaction}
      (h : buildHtlcSpend outpoint valueSat (buildHtlcScript paymentHash claim refund timeout)
        destination feeSat timeout .refund key = .ok tx) :
      Built (.p2wsh paymentHash claim refund timeout htimeout) outpoint valueSat destination feeSat
        .refund key tx
  | taprootClaim {direction : SwapDirection} {paymentHash : PaymentHash} {claim refund : PublicKey}
      {timeout : ℕ} {contract : BoltzTaprootSwap}
      {hnew : BoltzTaprootSwap.new direction paymentHash claim refund timeout = .ok contract}
      {outpoint : OutPoint} {valueSat : ℕ} {destination : Bytes} {feeSat : ℕ}
      {preimage : Preimage} {key : SecretKey} {tx : Transaction}
      (h : contract.claimTx outpoint valueSat destination feeSat preimage key = .ok tx) :
      Built (.taproot direction paymentHash claim refund timeout contract hnew) outpoint valueSat
        destination feeSat (.claim preimage) key tx
  | taprootRefund {direction : SwapDirection} {paymentHash : PaymentHash}
      {claim refund : PublicKey} {timeout : ℕ} {contract : BoltzTaprootSwap}
      {hnew : BoltzTaprootSwap.new direction paymentHash claim refund timeout = .ok contract}
      {outpoint : OutPoint} {valueSat : ℕ} {destination : Bytes} {feeSat : ℕ} {key : SecretKey}
      {tx : Transaction} (h : contract.refundTx outpoint valueSat destination feeSat key = .ok tx) :
      Built (.taproot direction paymentHash claim refund timeout contract hnew) outpoint valueSat
        destination feeSat .refund key tx

/-- What a branch asks of the one who spends: its key, and for a claim the preimage. -/
def Entitled (htlc : LockedHtlc) (node : Consensus) (path : SpendPath) (key : SecretKey) : Prop :=
  node.ownKey key (htlc.branchKey path.branch) ∧
    ∀ preimage, path = .claim preimage → PubkySwap.paymentHash preimage = htlc.paymentHash

end LockedHtlc

/-! ## Nothing else is accepted -/

/-- Acceptance of an input, with what it spends. -/
theorem Consensus.accepts_iff {node : Consensus} {tx : Transaction} {prevouts : List TxOut}
    {index : ℕ} {input : TxIn} {out : TxOut} (hinput : tx.input[index]? = some input)
    (hout : prevouts[index]? = some out) :
    node.accepts tx prevouts index = true ↔ input.scriptSig = [] ∧
      (node.inputContext tx prevouts index input out).acceptsOutput out.scriptPubkey
        input.witness = true := by
  unfold Consensus.accepts
  rw [hinput, hout]
  simp

omit [Crypto] in
theorem lt_two_pow_of_lt_threshold {n : ℕ} (hn : n < lockTimeThreshold) : n < 2 ^ 32 :=
  hn.trans (by decide)

/-- The two leaves are different strings. -/
theorem BoltzTaprootSwap.claimScript_ne_refundScript (contract : BoltzTaprootSwap) :
    contract.claimScript ≠ contract.refundScript := by
  have hrefund : contract.refundScript.head? = some 0x20 := by
    rw [contract.refundScript_eq, buildRefundScript, refundPieces, encode, List.flatMap_cons,
      Piece.encode, pushSlice, contract.refundKey.property]
    rfl
  have hclaim : contract.claimScript.head? ≠ some 0x20 := by
    rw [contract.claimScript_eq]
    generalize contract.parameters.paymentHash = hash
    cases contract.parameters.direction with
    | submarine =>
        show some 0xa9 ≠ some 0x20
        decide
    | reverse =>
        show some 0x82 ≠ some 0x20
        decide
  intro heq
  rw [heq] at hclaim
  exact hclaim hrefund

/-- The output key of a contract commits to its two leaves. -/
theorem Consensus.Follows.commits {node : Consensus} (hnode : node.Follows)
    {direction : SwapDirection} {paymentHash : PaymentHash} {claim refund : PublicKey}
    {timeout : ℕ} {contract : BoltzTaprootSwap}
    (hnew : BoltzTaprootSwap.new direction paymentHash claim refund timeout = .ok contract) :
    ∃ internalKey, aggregateInternalKey direction claim refund = .ok internalKey ∧
      node.tapHashes.Commits internalKey.val contract.claimScript contract.refundScript
        contract.spendInfo.outputKey.val := by
  obtain ⟨-, -, -, -, internalKey, hinternal, hinfo⟩ := BoltzTaprootSwap.new_eq_ok hnew
  obtain ⟨parity, -, htweak, -⟩ :=
    hnode.tweak internalKey _ _ _ hinfo contract.claimScript_ne_refundScript
  exact ⟨internalKey, hinternal, ⟨parity, htweak⟩⟩

namespace LockedHtlc

variable {node : Consensus} {tx : Transaction} {prevouts : List TxOut} {index : ℕ} {input : TxIn}
  {out : TxOut} {htlc : LockedHtlc}

omit [Crypto] in
/-- What a lock on a height lets in. -/
theorem reached {ctx : Context} {timeout : ℕ} (htimeout : timeout < lockTimeThreshold)
    (h : ctx.lockTimeReached (scriptNum timeout) = true) :
    timeout ≤ ctx.lockTime ∧ ctx.lockTime < lockTimeThreshold ∧ ctx.sequence ≠ 0xffffffff := by
  obtain ⟨hkind, hle, hsequence⟩ :=
    (Context.lockTimeReached_scriptNum (lt_two_pow_of_lt_threshold htimeout)).mp h
  exact ⟨hle, hkind.mp htimeout, hsequence⟩

/-- **No witness but an authorized one**: whatever an accepted input carries, it carries
the claim key's signature and a preimage, or the refund key's signature in a transaction
that has waited for the timeout. -/
theorem authorized_of_spentBy (hnode : node.Follows)
    (hspent : htlc.SpentBy node tx prevouts index input out)
    (hclean : NoCollision node input.witness htlc) :
    htlc.Authorized node tx prevouts index input out := by
  obtain ⟨hinput, hout, hlocked, haccepted, hleaf⟩ := hspent
  obtain ⟨-, haccepts⟩ := (Consensus.accepts_iff hinput hout).mp haccepted
  cases hclean with
  | @p2wsh paymentHash claim refund timeout htimeout hscript =>
      have hspk : out.scriptPubkey = 0x00 :: 0x20 ::
          (Crypto.sha256 (buildHtlcScript paymentHash claim refund timeout)).val := hlocked
      rw [hspk] at haccepts
      simp only [InputContext.acceptsOutput, Bool.and_eq_true] at haccepts
      obtain ⟨stack, script, hwitness, hprogram, hrun⟩ :=
        InputContext.acceptsP2wsh_iff.mp haccepts.2
      -- the witness program commits to the script, so that no other can be shown
      obtain rfl := hscript script (by rw [hwitness]; simp) (Subtype.ext hprogram)
      have hmem {element : Bytes} (h : element ∈ stack.reverse) : element ∈ input.witness := by
        rw [hwitness]
        exact List.mem_append_left _ (List.mem_reverse.mp h)
      obtain ⟨-, hstack⟩ :=
        (htlc_accepts_iff (lt_two_pow_of_lt_threshold htimeout)).mp hrun
      generalize stack.reverse = pushed at hstack hmem
      cases hstack with
      | @claim selector x sig _ _ hx hsig =>
          exact Or.inl ⟨sig, hmem (by simp), x, hmem (by simp), hsig, Subtype.ext hx⟩
      | @refund selector sig _ _ hlock hsig =>
          exact Or.inr ⟨sig, hmem (by simp), hsig, reached htimeout hlock⟩
  | @taproot direction paymentHash claim refund timeout contract hnew hproof hhash =>
      have hspk : out.scriptPubkey = 0x51 :: 0x20 :: contract.spendInfo.outputKey.val := hlocked
      obtain ⟨hvalid, hparameters, hclaimKey, hrefundKey, -⟩ := BoltzTaprootSwap.new_eq_ok hnew
      obtain ⟨-, -, hpos, htimeout⟩ := validateParameters_eq_ok hvalid
      obtain ⟨internalKey, hinternal, hcommits⟩ := hnode.commits hnew
      -- the key path is closed: what is left is a leaf that the output key commits to
      have hkeyPath := hleaf _ hspk
      rw [hspk] at haccepts
      simp only [InputContext.acceptsOutput, Bool.and_eq_true, hkeyPath, Bool.or_false] at haccepts
      obtain ⟨bytes, script, stack, control, hwitness, hread, hopens, hrun⟩ :=
        InputContext.acceptsLeaf_iff.mp haccepts.2
      have hmem {element : Bytes} (h : element ∈ bytes :: script :: stack) :
          element ∈ input.witness :=
        InputContext.mem_of_mem_withoutAnnex (by rw [hwitness]; exact h)
      have hclean := hproof bytes (hmem (by simp)) script (hmem (by simp)) control internalKey
        hread hinternal
      obtain ⟨hversion, hscript⟩ := TapHashes.leaf_of_opens hcommits hclean hopens
      have hrun := hrun.resolve_left (not_not.mpr hversion)
      -- it is one of the two that the contract has
      rcases hscript with rfl | rfl
      · rw [contract.claimScript_eq, hparameters] at hrun
        obtain ⟨-, hstack⟩ := claimLeaf_accepts_iff.mp hrun
        cases hstack with
        | @intro x sig _ hx hsig =>
            have hsha := hhash x (hmem (by simp)) (Subtype.ext hx)
            refine Or.inl ⟨sig, hmem (by simp), x, hmem (by simp), ?_, hsha⟩
            show node.checkSchnorr tx index prevouts contract.claimScript sig claim.xOnly.val = _
            rw [contract.claimScript_eq, hparameters, ← hclaimKey]
            exact hsig
      · rw [contract.refundScript_eq, hparameters] at hrun
        obtain ⟨-, sig, rfl, hlock, hsig⟩ :=
          (refundLeaf_accepts_iff (lt_two_pow_of_lt_threshold htimeout) hpos).mp hrun
        refine Or.inr ⟨sig, hmem (by simp), ?_, reached htimeout hlock⟩
        show node.checkSchnorr tx index prevouts contract.refundScript sig refund.xOnly.val = _
        rw [contract.refundScript_eq, hparameters, ← hrefundKey]
        exact hsig

end LockedHtlc

/-! ## What the program builds is accepted -/

section

variable {node : Consensus} {outpoint : OutPoint} {valueSat feeSat timeout : ℕ}
  {destination : Bytes} {paymentHash : PaymentHash} {claim refund : PublicKey} {key : SecretKey}
  {lockTime : ℕ} {sighash : Bytes32} {tx : Transaction}

omit [Crypto] in
/-- The input of a spend of one outpoint. -/
theorem input_unsignedSpend (witness : List Bytes) :
    ((unsignedSpend outpoint valueSat destination lockTime).withWitness witness).input =
      [⟨outpoint, [], enableRbfNoLocktime, witness⟩] := rfl

/-- A node accepts a spend of one outpoint when the output script accepts its witness. -/
theorem Consensus.accepts_unsignedSpend {node : Consensus} {value : ℕ} {witness : List Bytes}
    {out : TxOut}
    (htx : tx = (unsignedSpend outpoint value destination lockTime).withWitness witness)
    (haccepts : (node.inputContext tx [out] 0 ⟨outpoint, [], enableRbfNoLocktime, witness⟩
      out).acceptsOutput out.scriptPubkey witness = true) :
    node.accepts tx [out] 0 = true := by
  have hinput : tx.input[0]? = some ⟨outpoint, [], enableRbfNoLocktime, witness⟩ := by
    rw [htx, input_unsignedSpend]
    rfl
  exact (Consensus.accepts_iff hinput rfl).mpr ⟨rfl, haccepts⟩

/-- A witness that ends with the redeem script is accepted when the script accepts it. -/
theorem Consensus.accepts_htlcSpend {node : Consensus} {path : SpendPath} {anyTimeout : ℕ}
    (hspend : HtlcSpend outpoint valueSat (buildHtlcScript paymentHash claim refund timeout)
      destination feeSat anyTimeout path key lockTime sighash tx)
    (hrun : BitcoinScript.accepts
      ((node.inputContext tx [⟨valueSat,
          htlcP2wshScriptPubkey (buildHtlcScript paymentHash claim refund timeout)⟩] 0
        ⟨outpoint, [], enableRbfNoLocktime, htlcWitness path (serializeEcdsa sighash key)
          (buildHtlcScript paymentHash claim refund timeout)⟩
        ⟨valueSat, htlcP2wshScriptPubkey (buildHtlcScript paymentHash claim refund timeout)⟩
        ).witnessScript (buildHtlcScript paymentHash claim refund timeout))
      (buildHtlcScript paymentHash claim refund timeout)
      (htlcWitness path (serializeEcdsa sighash key) []).dropLast.reverse = true) :
    node.accepts tx [⟨valueSat,
      htlcP2wshScriptPubkey (buildHtlcScript paymentHash claim refund timeout)⟩] 0 = true := by
  refine Consensus.accepts_unsignedSpend hspend.tx_eq ?_
  have hwitness (script : Bytes) : htlcWitness path (serializeEcdsa sighash key) script =
      (htlcWitness path (serializeEcdsa sighash key) []).dropLast ++ [script] := by
    cases path <;> rfl
  have hlen (script : Bytes) : (Crypto.sha256 script).val.length = 32 :=
    (Crypto.sha256 script).property
  show (decide ((Crypto.sha256 _).val.length = 32) && InputContext.acceptsP2wsh _ _ _) = true
  rw [hlen, decide_eq_true rfl, Bool.true_and]
  conv_lhs => rw [hwitness]
  exact InputContext.acceptsP2wsh_append.mpr ⟨rfl, hrun⟩

theorem length_serializeEcdsa_le (hnode : node.Follows) (digest : Bytes32) (key : SecretKey) :
    (serializeEcdsa digest key).length ≤ 520 := by
  have hder := hnode.derLength digest key
  rw [serializeEcdsa, List.length_append, List.length_singleton]
  omega

/-- The signature of a built P2WSH spend is good. -/
theorem Consensus.Follows.signed (hnode : node.Follows) {script : Bytes} {path : SpendPath}
    {pubkey : PublicKey} {anyTimeout : ℕ}
    (hspend : HtlcSpend outpoint valueSat script destination feeSat anyTimeout path key lockTime
      sighash tx)
    (hkey : node.ownKey key pubkey) :
    node.checkEcdsa tx 0 script valueSat (serializeEcdsa sighash key) pubkey.serialized =
      some true := by
  rw [hspend.tx_eq]
  exact hnode.ecdsa _ 0 script valueSat sighash key pubkey _ hspend.digest hkey

/-- **A claim built with the claim key and the preimage is accepted**, whatever timeout
it was built with. -/
theorem accepts_htlcClaim (hnode : node.Follows) {preimage : Preimage} {anyTimeout : ℕ}
    (htimeout : timeout < 2 ^ 32)
    (hbuilt : buildHtlcSpend outpoint valueSat (buildHtlcScript paymentHash claim refund timeout)
      destination feeSat anyTimeout (.claim preimage) key = .ok tx)
    (hkey : node.ownKey key claim) (hhash : PubkySwap.paymentHash preimage = paymentHash) :
    node.accepts tx [⟨valueSat,
      htlcP2wshScriptPubkey (buildHtlcScript paymentHash claim refund timeout)⟩] 0 = true := by
  obtain ⟨lockTime, sighash, hspend⟩ := htlcSpend_of_build hbuilt
  refine Consensus.accepts_htlcSpend hspend ((htlc_accepts_iff htimeout).mpr ⟨?_, ?_⟩)
  · intro x hx
    simp only [htlcWitness, List.dropLast_cons_cons, List.dropLast_singleton, List.reverse_cons,
      List.reverse_nil, List.nil_append, List.cons_append, List.mem_cons, List.not_mem_nil,
      or_false] at hx
    rcases hx with rfl | rfl | rfl
    · decide
    · exact length_bytes32_le preimage
    · exact length_serializeEcdsa_le hnode sighash key
  · exact .claim (by decide) nofun (congrArg Subtype.val hhash) (hnode.signed hspend hkey)

/-- **A refund built with the refund key is accepted**, once the timeout is reached: the
transaction carries it as its lock time. -/
theorem accepts_htlcRefund (hnode : node.Follows)
    (hbuilt : buildHtlcSpend outpoint valueSat (buildHtlcScript paymentHash claim refund timeout)
      destination feeSat timeout .refund key = .ok tx)
    (hkey : node.ownKey key refund) :
    node.accepts tx [⟨valueSat,
      htlcP2wshScriptPubkey (buildHtlcScript paymentHash claim refund timeout)⟩] 0 = true := by
  obtain ⟨lockTime, sighash, hspend⟩ := htlcSpend_of_build hbuilt
  obtain ⟨rfl, htimeout⟩ := lockTimeFromHeight_eq_ok hspend.locked
  refine Consensus.accepts_htlcSpend hspend
    ((htlc_accepts_iff (lt_two_pow_of_lt_threshold htimeout)).mpr ⟨?_, ?_⟩)
  · intro x hx
    simp only [htlcWitness, List.dropLast_cons_cons, List.dropLast_singleton, List.reverse_cons,
      List.reverse_nil, List.nil_append, List.cons_append, List.mem_cons, List.not_mem_nil,
      or_false] at hx
    rcases hx with rfl | rfl
    · decide
    · exact length_serializeEcdsa_le hnode sighash key
  · refine .refund (by decide) nofun ?_ (hnode.signed hspend hkey)
    rw [Context.lockTimeReached_scriptNum (lt_two_pow_of_lt_threshold htimeout)]
    have hlock : tx.lockTime = lockTime := by
      rw [hspend.tx_eq]
      rfl
    show (_ ↔ tx.lockTime < _) ∧ lockTime ≤ tx.lockTime ∧ enableRbfNoLocktime ≠ 0xffffffff
    rw [hlock]
    exact ⟨Iff.rfl, le_rfl, by decide⟩

/-- **What a Taproot contract builds is accepted**: its constructor has checked the keys,
and it checks the signing key and the preimage itself. -/
theorem accepts_taprootSpend (hnode : node.Follows) {direction : SwapDirection}
    {contract : BoltzTaprootSwap} {path : SpendPath}
    (hnew : BoltzTaprootSwap.new direction paymentHash claim refund timeout = .ok contract)
    (hspend : contract.Spend outpoint valueSat destination feeSat path key sighash tx)
    (hhash : ∀ preimage, path = .claim preimage →
      PubkySwap.paymentHash preimage = contract.parameters.paymentHash) :
    node.accepts tx [⟨valueSat, contract.scriptPubkey⟩] 0 = true := by
  obtain ⟨hvalid, hparameters, hclaimKey, hrefundKey, internalKey, -, hinfo⟩ :=
    BoltzTaprootSwap.new_eq_ok hnew
  obtain ⟨-, -, hpos, htimeout⟩ := validateParameters_eq_ok hvalid
  obtain ⟨parity, hparity, htweak, hclaimBlock, hrefundBlock⟩ :=
    hnode.tweak internalKey _ _ _ hinfo contract.claimScript_ne_refundScript
  -- what both branches share: the output commits to the leaf, and the signature is good for it
  have hsigned : node.checkSchnorr tx 0 [⟨valueSat, contract.scriptPubkey⟩]
      (contract.leafScript path) (Crypto.signSchnorr sighash key).val (contract.pathKey path).val =
        some true := by
    rw [hspend.tx_eq, ← hspend.key_eq]
    exact hnode.schnorr _ 0 _ _ sighash key _ hspend.digest
  have hsize : (Crypto.signSchnorr sighash key).val.length ≤ 520 := by
    rw [(Crypto.signSchnorr sighash key).property]
    decide
  refine Consensus.accepts_unsignedSpend hspend.tx_eq ?_
  show (decide (contract.spendInfo.outputKey.val.length = 32) &&
    (InputContext.acceptsLeaf _ _ _ || InputContext.acceptsKeyPath _ _ _)) = true
  rw [contract.spendInfo.outputKey.property, decide_eq_true rfl, Bool.true_and, Bool.or_eq_true]
  left
  cases path with
  | claim preimage =>
      have hcontrol := hclaimBlock _ contract.claimControlBlock_eq
      have hwitness : contract.witness (.claim preimage) (Crypto.signSchnorr sighash key) =
          [(Crypto.signSchnorr sighash key).val, preimage.val] ++
            [contract.claimScript, contract.claimControlBlock.val] := rfl
      rw [hwitness, hcontrol]
      refine InputContext.acceptsLeaf_of_opens hparity internalKey.property (hnode.nodeLength _)
        htweak ?_
      have hscript : contract.claimScript =
          buildClaimScript direction paymentHash contract.claimKey := by
        rw [contract.claimScript_eq, hparameters]
      have hpreimage : Crypto.sha256 preimage.val = paymentHash := by
        have heq := hhash preimage rfl
        rwa [hparameters] at heq
      generalize hctx : InputContext.tapscript _ contract.claimScript = ctx
      rw [hscript]
      refine claimLeaf_accepts_iff.mpr ⟨?_, .intro (fun _ => preimage.property) ?_ ?_⟩
      · intro x hx
        simp only [List.reverse_cons, List.reverse_nil, List.nil_append, List.cons_append,
          List.mem_cons, List.not_mem_nil, or_false] at hx
        rcases hx with rfl | rfl
        · exact length_bytes32_le preimage
        · exact hsize
      · rw [← hctx, ← hpreimage]
        rfl
      · rw [← hctx]
        exact hsigned
  | refund =>
      have hcontrol := hrefundBlock _ contract.refundControlBlock_eq
      have hwitness : contract.witness .refund (Crypto.signSchnorr sighash key) =
          [(Crypto.signSchnorr sighash key).val] ++
            [contract.refundScript, contract.refundControlBlock.val] := rfl
      rw [hwitness, hcontrol]
      refine InputContext.acceptsLeaf_of_opens hparity internalKey.property (hnode.nodeLength _)
        ((congrArg _ (TapHashes.root_comm _ _)).trans htweak) ?_
      have hscript : contract.refundScript = buildRefundScript contract.refundKey timeout := by
        rw [contract.refundScript_eq, hparameters]
      -- the transaction carries the timeout as its lock time, which enables the lock
      have hlock : tx.lockTime = timeout := by
        rw [hspend.tx_eq]
        show contract.parameters.timeout = timeout
        rw [hparameters]
      generalize hctx : InputContext.tapscript _ contract.refundScript = ctx
      rw [hscript]
      refine (refundLeaf_accepts_iff (lt_two_pow_of_lt_threshold htimeout) hpos).mpr
        ⟨?_, _, rfl, ?_, ?_⟩
      · intro x hx
        obtain rfl := List.mem_singleton.mp hx
        exact hsize
      · rw [Context.lockTimeReached_scriptNum (lt_two_pow_of_lt_threshold htimeout), ← hctx]
        show (_ ↔ tx.lockTime < _) ∧ timeout ≤ tx.lockTime ∧ enableRbfNoLocktime ≠ 0xffffffff
        rw [hlock]
        exact ⟨Iff.rfl, le_rfl, by decide⟩
      · rw [← hctx]
        exact hsigned

end

/-- **The scripts and the builders agree.**  Whatever input a node accepts for an output
of an HTLC, it carries the claim key's signature and a string with the payment hash, or
the refund key's signature in a transaction that has waited for the timeout.  And
whatever the program builds with the key of a branch, and with the preimage for a claim,
is accepted, spends exactly the given outpoint, and pays all but the fee, which is no
dust, to the given destination and to no other. -/
theorem scripts_and_spends_agree {node : Consensus} (hnode : node.Follows) (htlc : LockedHtlc) :
    (∀ tx prevouts index input out, htlc.SpentBy node tx prevouts index input out →
      LockedHtlc.NoCollision node input.witness htlc →
      htlc.Authorized node tx prevouts index input out) ∧
    ∀ outpoint valueSat destination feeSat path key tx,
      LockedHtlc.Built htlc outpoint valueSat destination feeSat path key tx →
      htlc.Entitled node path key →
      node.accepts tx [⟨valueSat, htlc.scriptPubkey⟩] 0 = true ∧
        tx.input.map TxIn.previousOutput = [outpoint] ∧
        tx.output = [⟨valueSat - feeSat, destination⟩] ∧ feeSat ≤ valueSat ∧
        dustThreshold ≤ valueSat - feeSat := by
  refine ⟨fun tx prevouts index input out => LockedHtlc.authorized_of_spentBy hnode, ?_⟩
  intro outpoint valueSat destination feeSat path key tx hbuilt hentitled
  cases hbuilt with
  | htlcClaim h =>
      rename_i htimeout _ _
      obtain ⟨lockTime, sighash, hspend⟩ := htlcSpend_of_build h
      refine ⟨accepts_htlcClaim hnode (lt_two_pow_of_lt_threshold htimeout) h hentitled.1
        (hentitled.2 _ rfl), ?_, ?_, hspend.fee.le, hspend.dust⟩
      · rw [hspend.tx_eq]
        rfl
      · rw [hspend.tx_eq]
        rfl
  | htlcRefund h =>
      obtain ⟨lockTime, sighash, hspend⟩ := htlcSpend_of_build h
      refine ⟨accepts_htlcRefund hnode h hentitled.1, ?_, ?_, hspend.fee.le, hspend.dust⟩
      · rw [hspend.tx_eq]
        rfl
      · rw [hspend.tx_eq]
        rfl
  | taprootClaim h =>
      rename_i hnew preimage
      obtain ⟨hhash, h⟩ := ite_error_eq_ok.mp h
      obtain ⟨sighash, hspend⟩ := BoltzTaprootSwap.spend_of_spendTx h
      refine ⟨accepts_taprootSpend hnode hnew hspend ?_, ?_, ?_, hspend.fee, hspend.dust⟩
      · intro preimage' heq
        cases heq
        exact not_not.mp hhash
      · rw [hspend.tx_eq]
        rfl
      · rw [hspend.tx_eq]
        rfl
  | taprootRefund h =>
      rename_i hnew
      obtain ⟨sighash, hspend⟩ := BoltzTaprootSwap.spend_of_spendTx h
      refine ⟨accepts_taprootSpend hnode hnew hspend nofun, ?_, ?_, hspend.fee, hspend.dust⟩
      · rw [hspend.tx_eq]
        rfl
      · rw [hspend.tx_eq]
        rfl

end

/-! ## A claim of a known HTLC -/

namespace KnownHtlc

/-- The digest of a string, as a number in base 257. -/
def digest (bytes : Bytes) : Bytes32 :=
  Bytes32.ofNat (bytes.foldl (fun n byte => 257 * n + byte.toNat + 1) 0)

def tapHashes : TapHashes where
  node
    | .leaf version script => (digest (0 :: version :: script)).val
    | .branch left right => (digest (1 :: (left ++ right))).val
  tweak internalKey root := some ((digest (2 :: (internalKey ++ root))).val, 0)

/-- The tree of two leaves as its builder lays it out. -/
def twoLeaves (internalKey : Bytes32) (a b : Bytes) : TaprootSpendInfo where
  outputKey :=
    digest (2 :: (internalKey.val ++ tapHashes.root (.leaf 0xc0 a) [tapHashes.node (.leaf 0xc0 b)]))
  controlBlock script :=
    let sibling := if script = a then b else a
    if script = a ∨ script = b then
      some ⟨0xc0 :: (internalKey.val ++ tapHashes.node (.leaf 0xc0 sibling)), by
        rw [List.length_cons, List.length_append, internalKey.property]
        omega⟩
    else none

/-- Signatures are a digest and a key, and a public key is its secret key with a prefix. -/
local instance crates : Crypto where
  sha256 := digest
  ripemd160 bytes := ⟨(digest bytes).val.take 20, by
    rw [List.length_take, (digest bytes).property]
    decide⟩
  computeTxid tx := (tx.output.map TxOut.value).sum
  p2wshSignatureHash _ _ script _ := .ok (digest script)
  signEcdsa digest key := digest.val ++ key.val
  tapLeafHash script := digest (0 :: 0xc0 :: script)
  taprootSignatureHash _ _ _ leaf := .ok leaf
  signSchnorr digest key := ⟨digest.val ++ key.val, by
    rw [List.length_append, digest.property, key.property]⟩
  xOnlyPublicKey key := key
  aggregateKeys claim _ := .ok claim.xOnly
  finalizeTaproot internalKey
    | [(1, a), (1, b)] => .ok (twoLeaves internalKey a b)
    | _ => .error (.htlc "incomplete Taproot tree")
  minimalNonDust _ := 330

def node : Consensus where
  tapHashes := tapHashes
  checkEcdsa _ _ script _ sig key := some (sig = (digest script).val ++ key.drop 1 ++ [0x01])
  checkSchnorr _ _ _ script sig key := some (sig = (digest (0 :: 0xc0 :: script)).val ++ key)
  checkKeyPath _ _ _ _ _ := false
  ownKey key pubkey := pubkey.serialized.drop 1 = key.val

theorem node_follows : node.Follows where
  ecdsa := by
    rintro tx index script value digest' key pubkey witness hdigest hkey
    cases hdigest
    have hsig : serializeEcdsa (digest script) key =
        (digest script).val ++ pubkey.serialized.drop 1 ++ [0x01] := by
      rw [show pubkey.serialized.drop 1 = key.val from hkey]
      rfl
    exact congrArg some (decide_eq_true hsig)
  derLength digest key := by
    show (digest.val ++ key.val).length ≤ 72
    rw [List.length_append, digest.property, key.property]
    decide
  schnorr := by
    rintro tx index prevouts script digest' key witness hdigest
    cases hdigest
    exact congrArg some (decide_eq_true rfl)
  nodeLength tapNode := by
    cases tapNode with
    | leaf version script => exact (digest (0 :: version :: script)).property
    | branch left right => exact (digest (1 :: (left ++ right))).property
  tweak := by
    rintro internalKey a b info hinfo hne
    cases hinfo
    refine ⟨0, Or.inl rfl, rfl, ?_, ?_⟩
    · intro control hcontrol
      simp only [twoLeaves, true_or, if_true, Option.some.injEq] at hcontrol
      rw [← hcontrol]
      rfl
    · intro control hcontrol
      simp only [twoLeaves, or_true, if_true, if_neg hne.symm, Option.some.injEq] at hcontrol
      rw [← hcontrol]
      rfl

def claimKey : SecretKey := ⟨List.replicate 32 0x11, by decide⟩

def claim : PublicKey := ⟨true, 0x02 :: claimKey.val, by decide⟩

theorem length_refund : (0x03 :: List.replicate 32 (0x22 : UInt8)).length = 33 := rfl

def refund : PublicKey := ⟨true, 0x03 :: List.replicate 32 0x22, length_refund⟩

def preimage : Preimage := ⟨List.replicate 32 0x33, by decide⟩

def script : Bytes := buildHtlcScript (paymentHash preimage) claim refund 800000

def htlc : LockedHtlc := .p2wsh (paymentHash preimage) claim refund 800000 (by decide)

def input : TxIn :=
  ⟨⟨7, 0⟩, [], enableRbfNoLocktime,
    htlcWitness (.claim preimage) (serializeEcdsa (digest script) claimKey) script⟩

def tx : Transaction := ⟨2, 0, [input], [⟨99000, [0x51]⟩]⟩

theorem built : LockedHtlc.Built htlc ⟨7, 0⟩ 100000 [0x51] 1000 (.claim preimage) claimKey tx := by
  have hbuilt : buildHtlcSpend ⟨7, 0⟩ 100000 script [0x51] 1000 0 (.claim preimage) claimKey =
      .ok tx := rfl
  exact .htlcClaim hbuilt

/-- The general statement at a claim of a known P2WSH contract: it is accepted, and it
carries what an accepted input has to carry. -/
theorem known_claim_agrees :
    node.accepts tx [⟨100000, htlc.scriptPubkey⟩] 0 = true ∧
      htlc.Authorized node tx [⟨100000, htlc.scriptPubkey⟩] 0 input
        ⟨100000, htlc.scriptPubkey⟩ := by
  have hentitled : htlc.Entitled node (.claim preimage) claimKey := by
    refine ⟨rfl, fun preimage' heq => ?_⟩
    cases heq
    rfl
  have haccepted := ((scripts_and_spends_agree node_follows htlc).2 ⟨7, 0⟩ 100000 [0x51] 1000
    (.claim preimage) claimKey tx built hentitled).1
  have hclean : LockedHtlc.NoCollision node input.witness htlc := .p2wsh (by decide +kernel)
  exact ⟨haccepted, (scripts_and_spends_agree node_follows htlc).1 tx _ 0 input _
    ⟨rfl, rfl, rfl, haccepted, fun outputKey heq => by cases heq⟩ hclean⟩

end KnownHtlc

end PubkySwap
