import PubkySwap.Lib.BitcoinScript

/-!
# Witness programs

What a node asks of the witness of an input, by the output that is spent.  A P2WSH
witness ends with a script whose hash is the program.  A Taproot witness that takes
the script path ends with a leaf and a control block, and the control block proves
that the output key commits to the leaf: `TapHashes.opens` recomputes the root from
the leaf and its path and tweaks the internal key with it.

`leaf_of_opens` is what that proof is worth.  Of an output that commits to two leaves,
every control block opens one of the two, unless a hash of the proof collides with a
hash of the tree.  As real hash functions do collide somewhere, the assumption is about
the strings of the two computations and nothing else.

Of the opcodes, the interpreter knows those of hash- and time-locked contracts.  A leaf
of an unknown version is accepted, as consensus has it.
-/

namespace BitcoinScript

/-! ## Taproot commitments -/

/-- What the tagged hashes of a Taproot tree are applied to: a leaf, or two nodes with
the smaller one first. -/
inductive TapNode where
  | leaf (version : UInt8) (script : Bytes)
  | branch (left right : Bytes)
  deriving DecidableEq, Repr

/-- The node above two nodes. -/
def TapNode.pair (a b : Bytes) : TapNode :=
  if a.map UInt8.toNat ≤ b.map UInt8.toNat then .branch a b else .branch b a

theorem TapNode.pair_comm (a b : Bytes) : pair a b = pair b a := by
  have hinj : Function.Injective (List.map UInt8.toNat) :=
    List.map_injective_iff.mpr fun _ _ => UInt8.toNat_inj.mp
  unfold pair
  rcases lt_trichotomy (a.map UInt8.toNat) (b.map UInt8.toNat) with hlt | heq | hlt
  · rw [if_pos hlt.le, if_neg (not_le_of_gt hlt)]
  · rw [hinj heq]
  · rw [if_neg (not_le_of_gt hlt), if_pos hlt.le]

theorem TapNode.left_of_pair_eq {a b c d : Bytes} (h : pair a b = pair c d) : a = c ∨ a = d := by
  unfold pair at h
  split at h <;> split at h <;> cases h
  · exact Or.inl rfl
  · exact Or.inr rfl
  · exact Or.inr rfl
  · exact Or.inl rfl

theorem TapNode.leaf_ne_pair (version : UInt8) (script a b : Bytes) :
    leaf version script ≠ pair a b := by
  unfold pair
  split <;> exact TapNode.noConfusion

/-- The hash functions of Taproot outputs. -/
structure TapHashes where
  node : TapNode → Bytes
  /-- The output key and its parity, from an internal key and a root. -/
  tweak : Bytes → Bytes → Option (Bytes × UInt8)

namespace TapHashes

variable (h : TapHashes)

/-- The root above a node, by the siblings on the way up. -/
def root (node : TapNode) : List Bytes → Bytes
  | [] => h.node node
  | sibling :: path => root (.pair (h.node node) sibling) path

/-- The nodes that are hashed on the way up. -/
def climb (node : TapNode) : List Bytes → List TapNode
  | [] => [node]
  | sibling :: path => node :: climb (.pair (h.node node) sibling) path

/-- The nodes of a tree with two leaves. -/
def twoLeaves (a b : TapNode) : List TapNode := [a, b, .pair (h.node a) (h.node b)]

/-- No node of one computation collides with one of the other. -/
def NoCollision (nodes nodes' : List TapNode) : Prop :=
  ∀ a ∈ nodes, ∀ b ∈ nodes', h.node a = h.node b → a = b

variable {h}

/-- Every way up to the root of a tree with two leaves starts in the tree. -/
theorem mem_twoLeaves_of_root_eq {version version' : UInt8} {script script' : Bytes} :
    ∀ {path : List Bytes} {node : TapNode},
      h.root node path = h.root (.leaf version script) [h.node (.leaf version' script')] →
      h.NoCollision (h.climb node path)
        (h.twoLeaves (.leaf version script) (.leaf version' script')) →
      node ∈ h.twoLeaves (.leaf version script) (.leaf version' script') := by
  intro path
  induction path with
  | nil =>
      intro node hroot hclean
      have hnode := hclean node (List.mem_singleton_self node) _ (by simp [twoLeaves]) hroot
      rw [hnode]
      simp [twoLeaves]
  | cons sibling path ih =>
      intro node hroot hclean
      have habove := ih hroot fun a ha => hclean a (List.mem_cons_of_mem _ ha)
      -- A pair is neither of the leaves, so it is their parent.
      have hpair : TapNode.pair (h.node node) sibling =
          .pair (h.node (.leaf version script)) (h.node (.leaf version' script')) := by
        simp only [twoLeaves, List.mem_cons, List.not_mem_nil, or_false] at habove
        rcases habove with heq | heq | heq
        · exact absurd heq.symm (TapNode.leaf_ne_pair _ _ _ _)
        · exact absurd heq.symm (TapNode.leaf_ne_pair _ _ _ _)
        · exact heq
      have hnode {other : TapNode} (hother : other ∈ h.twoLeaves (.leaf version script)
          (.leaf version' script')) (heq : h.node node = h.node other) : node = other :=
        hclean node List.mem_cons_self other hother heq
      rcases TapNode.left_of_pair_eq hpair with heq | heq
      · rw [hnode (by simp [twoLeaves]) heq]
        simp [twoLeaves]
      · rw [hnode (by simp [twoLeaves]) heq]
        simp [twoLeaves]

theorem root_comm (a b : TapNode) : h.root a [h.node b] = h.root b [h.node a] := by
  show h.node (.pair (h.node a) (h.node b)) = h.node (.pair (h.node b) (h.node a))
  rw [TapNode.pair_comm]

end TapHashes

/-! ## Control blocks -/

/-- A control block, read. -/
structure Control where
  /-- The leaf version, with the parity of the output key in the lowest bit. -/
  first : UInt8
  internalKey : Bytes
  path : List Bytes
  deriving DecidableEq, Repr

def Control.version (control : Control) : UInt8 := control.first &&& 0xfe

def Control.parity (control : Control) : UInt8 := control.first &&& 1

/-- A string in pieces of 32 bytes. -/
def chunks : ℕ → Bytes → List Bytes
  | 0, _ => []
  | n + 1, bytes => bytes.take 32 :: chunks n (bytes.drop 32)

/-- A first byte, an internal key, and a path of at most 128 nodes. -/
def Control.read : Bytes → Option Control
  | [] => none
  | first :: bytes =>
      if 32 ≤ bytes.length ∧ bytes.length % 32 = 0 ∧ bytes.length ≤ 32 * 129 then
        some ⟨first, bytes.take 32, chunks ((bytes.length - 32) / 32) (bytes.drop 32)⟩
      else none

/-- A control block with one sibling is read as it was written. -/
theorem Control.read_one {internalKey sibling : Bytes} (first : UInt8)
    (hkey : internalKey.length = 32) (hsibling : sibling.length = 32) :
    Control.read (first :: (internalKey ++ sibling)) = some ⟨first, internalKey, [sibling]⟩ := by
  have hlen : (internalKey ++ sibling).length = 64 := by
    rw [List.length_append, hkey, hsibling]
  have htake : (internalKey ++ sibling).take 32 = internalKey := List.take_left' hkey
  have hdrop : (internalKey ++ sibling).drop 32 = sibling := List.drop_left' hkey
  have hwhole : sibling.take 32 = sibling := List.take_of_length_le hsibling.le
  rw [Control.read, if_pos (by rw [hlen]; decide), hlen, htake, hdrop]
  show some (Control.mk first internalKey [sibling.take 32]) = _
  rw [hwhole]

/-- The control block proves that the output key commits to the leaf. -/
def TapHashes.opens (h : TapHashes) (outputKey : Bytes) (control : Control)
    (script : Bytes) : Bool :=
  h.tweak control.internalKey (h.root (.leaf control.version script) control.path) =
    some (outputKey, control.parity)

/-- An output key that commits to two leaves of tapscript. -/
structure TapHashes.Commits (h : TapHashes) (internalKey a b outputKey : Bytes) : Prop where
  tweak : ∃ parity, h.tweak internalKey (h.root (.leaf 0xc0 a) [h.node (.leaf 0xc0 b)]) =
    some (outputKey, parity)

/-- The hashes of a proof do not collide with those of a tree of two leaves: neither the
nodes nor the tweaks. -/
structure TapHashes.Clean (h : TapHashes) (internalKey a b : Bytes) (control : Control)
    (script : Bytes) : Prop where
  nodes : h.NoCollision (h.climb (.leaf control.version script) control.path)
    (h.twoLeaves (.leaf 0xc0 a) (.leaf 0xc0 b))
  tweak : ∀ outputKey parity parity',
    h.tweak control.internalKey (h.root (.leaf control.version script) control.path) =
      some (outputKey, parity) →
    h.tweak internalKey (h.root (.leaf 0xc0 a) [h.node (.leaf 0xc0 b)]) =
      some (outputKey, parity') →
    h.root (.leaf control.version script) control.path =
      h.root (.leaf 0xc0 a) [h.node (.leaf 0xc0 b)]

/-- **A control block opens a leaf of the tree**, and in the version it has there. -/
theorem TapHashes.leaf_of_opens {h : TapHashes} {internalKey a b outputKey script : Bytes}
    {control : Control} (hcommits : h.Commits internalKey a b outputKey)
    (hclean : h.Clean internalKey a b control script)
    (hopens : h.opens outputKey control script = true) :
    control.version = 0xc0 ∧ (script = a ∨ script = b) := by
  obtain ⟨parity, htweak⟩ := hcommits.tweak
  have hroot := hclean.tweak outputKey _ parity (of_decide_eq_true hopens) htweak
  have hmem := mem_twoLeaves_of_root_eq hroot hclean.nodes
  simp only [twoLeaves, List.mem_cons, List.not_mem_nil, or_false, TapNode.leaf.injEq] at hmem
  rcases hmem with ⟨hversion, hscript⟩ | ⟨hversion, hscript⟩ | hbranch
  · exact ⟨hversion, Or.inl hscript⟩
  · exact ⟨hversion, Or.inr hscript⟩
  · exact absurd hbranch (TapNode.leaf_ne_pair _ _ _ _)

/-! ## The rules -/

/-- What a node knows of an input besides its witness: the hash functions, the
signature checks, each over the script that is run, and the locks. -/
structure InputContext where
  sha256 : Bytes → Bytes
  ripemd160 : Bytes → Bytes
  tapHashes : TapHashes
  /-- Of a witness script, a signature and a key; none when the signature's encoding
  already fails the script. -/
  checkEcdsa : Bytes → Bytes → Bytes → Option Bool
  /-- The same of a leaf. -/
  checkSchnorr : Bytes → Bytes → Bytes → Option Bool
  /-- Of a signature, by the output key itself. -/
  checkKeyPath : Bytes → Bytes → Bool
  lockTime : ℕ
  sequence : ℕ

namespace InputContext

variable (ctx : InputContext)

/-- What a witness script is run in. -/
def witnessScript (script : Bytes) : Context where
  sha256 := ctx.sha256
  ripemd160 := ctx.ripemd160
  checkSig := ctx.checkEcdsa script
  lockTime := ctx.lockTime
  sequence := ctx.sequence
  minimalIf := false

/-- What a leaf is run in. -/
def tapscript (script : Bytes) : Context where
  sha256 := ctx.sha256
  ripemd160 := ctx.ripemd160
  checkSig := ctx.checkSchnorr script
  lockTime := ctx.lockTime
  sequence := ctx.sequence
  minimalIf := true

/-- **P2WSH**: the last element is a script with the program's hash, and accepts the
others. -/
def acceptsP2wsh (program : Bytes) (witness : List Bytes) : Bool :=
  match witness.reverse with
  | [] => false
  | script :: stack =>
      ctx.sha256 script = program && accepts (ctx.witnessScript script) script stack

/-- The witness from its end, without the annex. -/
def withoutAnnex (witness : List Bytes) : List Bytes :=
  match witness.reverse with
  | last :: before :: rest =>
      if last.head? = some 0x50 then before :: rest else last :: before :: rest
  | rest => rest

/-- **The script path of Taproot**: the last element opens the one before it, which
accepts the others. -/
def acceptsLeaf (outputKey : Bytes) (witness : List Bytes) : Bool :=
  match withoutAnnex witness with
  | control :: script :: stack =>
      match Control.read control with
      | none => false
      | some control =>
          ctx.tapHashes.opens outputKey control script &&
            (control.version ≠ 0xc0 || accepts (ctx.tapscript script) script stack)
  | _ => false

/-- The key path of Taproot. -/
def acceptsKeyPath (outputKey : Bytes) (witness : List Bytes) : Bool :=
  match withoutAnnex witness with
  | [sig] => ctx.checkKeyPath sig outputKey
  | _ => false

/-- **Acceptance** of a witness by an output script. -/
def acceptsOutput (spk : Bytes) (witness : List Bytes) : Bool :=
  match spk with
  | 0x00 :: 0x20 :: program => program.length = 32 && ctx.acceptsP2wsh program witness
  | 0x51 :: 0x20 :: outputKey =>
      outputKey.length = 32 &&
        (ctx.acceptsLeaf outputKey witness || ctx.acceptsKeyPath outputKey witness)
  | _ => false

variable {ctx}

theorem acceptsP2wsh_append {program : Bytes} {stack : List Bytes} {script : Bytes} :
    ctx.acceptsP2wsh program (stack ++ [script]) = true ↔
      ctx.sha256 script = program ∧
        accepts (ctx.witnessScript script) script stack.reverse = true := by
  simp [acceptsP2wsh]

/-- Every accepted P2WSH witness ends with its script. -/
theorem acceptsP2wsh_iff {program : Bytes} {witness : List Bytes} :
    ctx.acceptsP2wsh program witness = true ↔
      ∃ stack script, witness = stack ++ [script] ∧ ctx.sha256 script = program ∧
        accepts (ctx.witnessScript script) script stack.reverse = true := by
  constructor
  · intro h
    rcases List.eq_nil_or_concat witness with rfl | ⟨stack, script, rfl⟩
    · exact absurd h (by simp [acceptsP2wsh])
    · exact ⟨stack, script, by simp, acceptsP2wsh_append.mp (by simpa using h)⟩
  · rintro ⟨stack, script, rfl, h⟩
    exact acceptsP2wsh_append.mpr h

/-- Every witness accepted on the script path ends with a leaf and a control block that
opens it, up to an annex. -/
theorem acceptsLeaf_iff {outputKey : Bytes} {witness : List Bytes} :
    ctx.acceptsLeaf outputKey witness = true ↔
      ∃ bytes script stack control, withoutAnnex witness = bytes :: script :: stack ∧
        Control.read bytes = some control ∧
        ctx.tapHashes.opens outputKey control script = true ∧
        (control.version ≠ 0xc0 ∨ accepts (ctx.tapscript script) script stack = true) := by
  unfold acceptsLeaf
  constructor
  · intro h
    split at h
    · rename_i bytes script stack hwitness
      split at h
      · cases h
      · rename_i control hread
        rw [Bool.and_eq_true, Bool.or_eq_true] at h
        refine ⟨bytes, script, stack, control, hwitness, hread, h.1, ?_⟩
        simpa using h.2
    · cases h
  · rintro ⟨bytes, script, stack, control, hwitness, hread, hopens, hrun⟩
    rw [hwitness]
    simp only [hread, hopens, Bool.true_and, Bool.or_eq_true]
    simpa using hrun

/-- A control block is not an annex. -/
theorem withoutAnnex_append {stack : List Bytes} {script control : Bytes}
    (hcontrol : control.head? ≠ some 0x50) :
    withoutAnnex (stack ++ [script, control]) = control :: script :: stack.reverse := by
  have hreverse : (stack ++ [script, control]).reverse = control :: script :: stack.reverse := by
    simp
  unfold withoutAnnex
  rw [hreverse]
  exact if_neg hcontrol

/-- **A leaf opened by its sibling** accepts what its script accepts. -/
theorem acceptsLeaf_of_opens {outputKey internalKey sibling script : Bytes} {stack : List Bytes}
    {parity : UInt8} (hparity : parity = 0 ∨ parity = 1) (hkey : internalKey.length = 32)
    (hsibling : sibling.length = 32)
    (htweak : ctx.tapHashes.tweak internalKey
      (ctx.tapHashes.root (.leaf 0xc0 script) [sibling]) = some (outputKey, parity))
    (hrun : accepts (ctx.tapscript script) script stack.reverse = true) :
    ctx.acceptsLeaf outputKey
      (stack ++ [script, (0xc0 ||| parity) :: (internalKey ++ sibling)]) = true := by
  have hfirst : (0xc0 ||| parity) &&& 0xfe = 0xc0 ∧ (0xc0 ||| parity) &&& 1 = parity ∧
      (0xc0 ||| parity) ≠ 0x50 := by
    rcases hparity with rfl | rfl <;> decide
  have hopens : ctx.tapHashes.opens outputKey ⟨0xc0 ||| parity, internalKey, [sibling]⟩ script =
      true := by
    show decide (ctx.tapHashes.tweak internalKey (ctx.tapHashes.root
      (.leaf ((0xc0 ||| parity) &&& 0xfe) script) [sibling]) =
        some (outputKey, (0xc0 ||| parity) &&& 1)) = true
    rw [hfirst.1, hfirst.2.1, htweak, decide_eq_true rfl]
  refine acceptsLeaf_iff.mpr ⟨_, script, stack.reverse, _, withoutAnnex_append ?_,
    Control.read_one _ hkey hsibling, hopens, Or.inr hrun⟩
  exact fun h => hfirst.2.2 (Option.some.inj h)

/-- The elements of a witness without its annex are elements of it. -/
theorem mem_of_mem_withoutAnnex {witness : List Bytes} {element : Bytes}
    (h : element ∈ withoutAnnex witness) : element ∈ witness := by
  unfold withoutAnnex at h
  split at h
  · rename_i last before rest heq
    have hmem : element ∈ witness.reverse := by
      rw [heq]
      split at h
      · exact List.mem_cons_of_mem _ h
      · exact h
    exact List.mem_reverse.mp hmem
  · exact List.mem_reverse.mp h

end InputContext

end BitcoinScript
