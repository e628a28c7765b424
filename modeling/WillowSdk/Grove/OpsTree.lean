/-
# What the check of a layer's ops accepts

A layer's ops build a tree on a stack: a push puts a one-node tree there,
and the other ops pop a parent and a child and push the parent back with the
child attached. `check_ops` keeps one bit for each tree, whether its top is
an opaque `Hash`. Step by step that bit stack is the image of the tree stack
(`checkOp_eq_ok`), so the check accepts exactly the well-formed sequences
(`checkOps_eq_ok`), and the work list reaches every layer
(`checkLayersFrom_eq_ok`): `check_layers_iff`.

A `ProofTree` forgets nothing: attaching keeps all of the parent, so what is
true of every node pushed is true of every node of the tree.
-/
import WillowSdk.Grove.Ops

namespace WillowSdk
namespace Grove

variable {D : Type}

/-! ### Trees -/

/-- The side of its parent a child is attached to. -/
inductive Side
  | left
  | right
deriving DecidableEq

/-- A tree of nodes, as the ops attach them. -/
inductive ProofTree (D : Type)
  | single (node : Node D)
  | attach (side : Side) (parent child : ProofTree D)

namespace ProofTree

/-- The node at the top. -/
def top : ProofTree D → Node D
  | .single n => n
  | .attach _ p _ => p.top

def nodes : ProofTree D → List (Node D)
  | .single n => [n]
  | .attach _ p c => p.nodes ++ c.nodes

/-- No child hangs below an opaque `Hash`: every one is a leaf. -/
def HashesAreLeaves : ProofTree D → Prop
  | .single _ => True
  | .attach _ p c => p.top.isHash = false ∧ p.HashesAreLeaves ∧ c.HashesAreLeaves

end ProofTree

/-! ### The stack of trees -/

/-- What one op does to the stack; `none` is a pop from an empty stack. -/
def stepTrees (stack : List (ProofTree D)) : Op D → Option (List (ProofTree D))
  | .push n | .pushInverted n => some (.single n :: stack)
  | .parent =>
    match stack with
    | p :: c :: stack => some (.attach .left p c :: stack)
    | _ => none
  | .parentInverted =>
    match stack with
    | p :: c :: stack => some (.attach .right p c :: stack)
    | _ => none
  | .child =>
    match stack with
    | c :: p :: stack => some (.attach .right p c :: stack)
    | _ => none
  | .childInverted =>
    match stack with
    | c :: p :: stack => some (.attach .left p c :: stack)
    | _ => none

def runTrees : List (ProofTree D) → List (Op D) → Option (List (ProofTree D))
  | stack, [] => some stack
  | stack, op :: ops => (stepTrees stack op).bind (runTrees · ops)

/-- The tree an op attaches a child to. -/
def parentOf (stack : List (ProofTree D)) : Op D → Option (ProofTree D)
  | .push _ | .pushInverted _ => none
  | .parent | .parentInverted => stack[0]?
  | .child | .childInverted => stack[1]?

/-- The op attaches no child to an opaque `Hash`. -/
def SparesHash (stack : List (ProofTree D)) (op : Op D) : Prop :=
  ∀ p, parentOf stack op = some p → p.top.isHash = false

/-- No op of the run attaches a child to an opaque `Hash`. -/
def NeverUnderHash : List (ProofTree D) → List (Op D) → Prop
  | _, [] => True
  | stack, op :: ops => SparesHash stack op ∧
      ∀ stack', stepTrees stack op = some stack' → NeverUnderHash stack' ops

/-- What one op does: it pushes a node, or it attaches one of the top two
trees to the other. -/
theorem stepTrees_cases {stack stack' : List (ProofTree D)} {op : Op D}
    (h : stepTrees stack op = some stack') :
    (∃ n, op.pushed = some n ∧ stack' = .single n :: stack) ∨
    ∃ side p c rest, op.pushed = none ∧ parentOf stack op = some p ∧
      (stack = p :: c :: rest ∨ stack = c :: p :: rest) ∧ stack' = .attach side p c :: rest := by
  cases op with
  | push n | pushInverted n => exact .inl ⟨n, rfl, (Option.some.inj h).symm⟩
  | parent | parentInverted =>
    match stack, h with
    | p :: c :: rest, h =>
      exact .inr ⟨_, p, c, rest, rfl, rfl, .inl rfl, (Option.some.inj h).symm⟩
  | child | childInverted =>
    match stack, h with
    | c :: p :: rest, h =>
      exact .inr ⟨_, p, c, rest, rfl, rfl, .inr rfl, (Option.some.inj h).symm⟩

/-- The bit `check_ops` keeps for each tree. -/
def bits (stack : List (ProofTree D)) : List Bool := stack.map fun t => t.top.isHash

@[simp] theorem bits_cons (t : ProofTree D) (stack : List (ProofTree D)) :
    bits (t :: stack) = t.top.isHash :: bits stack := rfl

/-- A well-formed layer: its ops never pop an empty stack, build one tree,
attach nothing to an opaque `Hash`, and carry only values that decode. -/
structure WellFormed (decode : Bytes → Result Element) (ops : List (Op D)) : Prop where
  builds : ∃ t, runTrees [] ops = some [t]
  neverUnderHash : NeverUnderHash [] ops
  decodes : ∀ op ∈ ops, ∀ n v, op.pushed = some n → n.value = some v → ∃ e, decode v = .ok e

/-! ### The simulation -/

section Simulation

variable {decode : Bytes → Result Element}

/-- The values an op carries decode. -/
def Decodes (decode : Bytes → Result Element) (op : Op D) : Prop :=
  ∀ n v, op.pushed = some n → n.value = some v → ∃ e, decode v = .ok e

theorem checkOp_push {bs s : List Bool} {n : Node D} {op : Op D} (hop : op.pushed = some n) :
    checkOp decode bs op = .ok s ↔ Decodes decode op ∧ s = n.isHash :: bs := by
  have hcheck : checkOp decode bs op = .ok s ↔
      (∀ v, n.value = some v → ∃ e, decode v = .ok e) ∧ n.isHash :: bs = s := by
    cases op with
    | push m | pushInverted m =>
      obtain rfl : m = n := by simpa [Op.pushed] using hop
      cases hv : m.value with
      | none => simp [checkOp, hv]
      | some v => simp [checkOp, hv]
    | _ => simp [Op.pushed] at hop
  have hdec : Decodes decode op ↔ ∀ v, n.value = some v → ∃ e, decode v = .ok e := by
    simp only [Decodes, hop, Option.some.injEq]
    exact ⟨fun h v => h n v rfl, fun h m v hm => hm ▸ h v⟩
  rw [hcheck, hdec, eq_comm]

/-- The op pushes a node or attaches a child, which is on top of its parent
(a Child op) or below it (a Parent op). -/
theorem checkOp_attach {stack : List (ProofTree D)} {s : List Bool} {op : Op D}
    (hop : op.pushed = none) :
    checkOp decode (bits stack) op = .ok s ↔
      ∃ stack', stepTrees stack op = some stack' ∧ SparesHash stack op ∧ bits stack' = s := by
  cases op with
  | push n | pushInverted n => simp [Op.pushed] at hop
  | parent | parentInverted | child | childInverted =>
    match stack with
    | [] => simp [checkOp, bits, stepTrees]
    | [t] => simp [checkOp, bits, stepTrees]
    | t :: u :: stack => simp [checkOp, stepTrees, SparesHash, parentOf, ProofTree.top]

/-- **One step.** The bit stack follows the tree stack. -/
theorem checkOp_eq_ok {stack : List (ProofTree D)} {op : Op D} {s : List Bool} :
    checkOp decode (bits stack) op = .ok s ↔
      ∃ stack', stepTrees stack op = some stack' ∧ SparesHash stack op ∧ Decodes decode op ∧
        s = bits stack' := by
  cases hop : op.pushed with
  | none =>
    simp [checkOp_attach hop, Decodes, hop, eq_comm (a := s)]
  | some n =>
    rw [checkOp_push hop]
    have hstep : stepTrees stack op = some (.single n :: stack) := by
      cases op <;> simp_all [Op.pushed, stepTrees]
    have hspare : SparesHash stack op := by
      cases op <;> simp_all [Op.pushed, SparesHash, parentOf]
    simp [hstep, hspare, ProofTree.top]

/-- **The whole run.** -/
theorem checkOps_eq_ok {ops : List (Op D)} : ∀ stack : List (ProofTree D),
    checkOps decode (bits stack) (ops.map .ok) = .ok () ↔
      (∃ t, runTrees stack ops = some [t]) ∧ NeverUnderHash stack ops ∧
        ∀ op ∈ ops, Decodes decode op := by
  induction ops with
  | nil =>
    intro stack
    simp [checkOps, runTrees, NeverUnderHash, bits, List.length_eq_one_iff]
  | cons op ops ih =>
    intro stack
    simp only [List.map_cons, checkOps, Outcome.bind_eq_ok, Except.ok.injEq, exists_eq_left',
      checkOp_eq_ok, runTrees, NeverUnderHash, List.forall_mem_cons]
    refine ⟨fun h => ?_, fun h => ?_⟩
    · obtain ⟨_, ⟨stack', hs, hh, hd, rfl⟩, h⟩ := h
      obtain ⟨ht, hn, hds⟩ := (ih _).mp h
      refine ⟨by simpa [hs] using ht, ⟨hh, fun s' hs' => ?_⟩, hd, hds⟩
      obtain rfl : stack' = s' := by simpa [hs] using hs'
      exact hn
    · obtain ⟨⟨t, ht⟩, ⟨hh, hn⟩, hd, hds⟩ := h
      obtain ⟨stack', hs, ht⟩ := Option.bind_eq_some_iff.mp ht
      exact ⟨_, ⟨stack', hs, hh, hd, rfl⟩, (ih _).mpr ⟨⟨t, ht⟩, hn stack' hs, hds⟩⟩

/-- A check that passes has decoded every op. -/
theorem checkOps_decodes {bs : List Bool} {ops : List (Result (Op D))}
    (h : checkOps decode bs ops = .ok ()) : ∃ ops' : List (Op D), ops = ops'.map .ok := by
  induction ops generalizing bs with
  | nil => exact ⟨[], rfl⟩
  | cons op ops ih =>
    rw [checkOps, Outcome.bind_eq_ok] at h
    obtain ⟨op', rfl, h⟩ := h
    obtain ⟨_, -, h⟩ := Outcome.bind_eq_ok.mp h
    obtain ⟨ops', rfl⟩ := ih h
    exact ⟨op' :: ops', rfl⟩

theorem checkOps_iff {ops : List (Result (Op D))} :
    checkOps decode [] ops = .ok () ↔ ∃ ops', ops = ops'.map .ok ∧ WellFormed decode ops' := by
  refine ⟨fun h => ?_, fun h => ?_⟩
  · obtain ⟨ops', rfl⟩ := checkOps_decodes h
    obtain ⟨ht, hn, hd⟩ := (checkOps_eq_ok []).mp h
    exact ⟨ops', rfl, ht, hn, hd⟩
  · obtain ⟨ops', rfl, ⟨ht, hn, hd⟩⟩ := h
    exact (checkOps_eq_ok []).mpr ⟨ht, hn, hd⟩

/-! ### Hash nodes of the final tree -/

/-- Attaching nothing to an opaque `Hash` keeps them leaves on the whole stack. -/
theorem hashesAreLeaves_step {stack stack' : List (ProofTree D)} {op : Op D}
    (h : ∀ t ∈ stack, t.HashesAreLeaves) (hs : stepTrees stack op = some stack')
    (hop : SparesHash stack op) : ∀ t ∈ stack', t.HashesAreLeaves := by
  intro t ht
  rcases stepTrees_cases hs with ⟨n, -, rfl⟩ | ⟨side, p, c, rest, -, hp, hstack, rfl⟩
  · rcases List.mem_cons.mp ht with rfl | ht
    · exact trivial
    · exact h t ht
  · have hparent : p ∈ stack := by rcases hstack with rfl | rfl <;> simp
    have hchild : c ∈ stack := by rcases hstack with rfl | rfl <;> simp
    have hrest : rest ⊆ stack := by
      intro u hu
      rcases hstack with rfl | rfl <;> simp [hu]
    rcases List.mem_cons.mp ht with rfl | ht
    · have htop : p.top.isHash = false := hop p hp
      exact ⟨htop, h p hparent, h c hchild⟩
    · exact h t (hrest ht)

theorem hashesAreLeaves_run {ops : List (Op D)} : ∀ {stack stack' : List (ProofTree D)},
    (∀ t ∈ stack, t.HashesAreLeaves) → runTrees stack ops = some stack' →
    NeverUnderHash stack ops → ∀ t ∈ stack', t.HashesAreLeaves := by
  induction ops with
  | nil =>
    intro stack stack' h hr _
    simp only [runTrees, Option.some.injEq] at hr
    exact hr ▸ h
  | cons op ops ih =>
    intro stack stack' h hr hn
    obtain ⟨hspares, hrest⟩ := hn
    obtain ⟨s, hs, hr⟩ := Option.bind_eq_some_iff.mp hr
    have hstep : ∀ t ∈ s, t.HashesAreLeaves := hashesAreLeaves_step h hs hspares
    exact ih hstep hr (hrest s hs)

theorem WellFormed.hashesAreLeaves {ops : List (Op D)} (h : WellFormed decode ops) {t : ProofTree D}
    (ht : runTrees [] ops = some [t]) : t.HashesAreLeaves :=
  hashesAreLeaves_run (by simp) ht h.neverUnderHash t List.mem_cons_self

end Simulation

/-! ### Every layer -/

variable (deps : Deps D) (decode : Bytes → Result Element)

/-- A layer's ops decode, and are well formed. -/
def LayerWellFormed (layer : LayerProof) : Prop :=
  ∃ ops, layerOps deps layer = ops.map .ok ∧ WellFormed decode ops

section OneNode

variable {deps decode}

/-- A layer that only pushes a node. -/
theorem checkOps_push {n : Node D} {v : Bytes} {e : Element} (hv : n.value = some v)
    (he : decode v = .ok e) : checkOps decode [] [.ok (.push n)] = .ok () := by
  have hstep : checkOp decode [] (.push n) = .ok [n.isHash] := by
    simp [checkOp, hv, he, bind, Except.bind]
  simp [checkOps, hstep, bind, Except.bind]

theorem checkLayersFrom_leaf {ops : Bytes}
    (h : checkOps decode [] (layerOps deps (.mk ops [])) = .ok ()) :
    checkLayersFrom deps decode [.mk ops []] = .ok () := by
  rw [checkLayersFrom, h]
  show checkLayersFrom deps decode [] = _
  rw [checkLayersFrom]

/-- A layer with one lower layer is followed by it. -/
theorem checkLayersFrom_lower {ops seg : Bytes} {lower : LayerProof}
    (h : checkOps decode [] (layerOps deps (.mk ops [(seg, lower)])) = .ok ()) :
    checkLayersFrom deps decode [.mk ops [(seg, lower)]] = checkLayersFrom deps decode [lower] := by
  rw [checkLayersFrom, h]
  rfl

end OneNode

/-- The work list reaches every layer below its entries. -/
theorem checkLayersFrom_eq_ok (layers : List LayerProof) :
    checkLayersFrom deps decode layers = .ok () ↔
      ∀ root ∈ layers, ∀ layer, LayerProof.Within root layer → LayerWellFormed deps decode layer := by
  induction layers using checkLayersFrom.induct with
  | case1 => simp [checkLayersFrom]
  | case2 layer layers ih =>
    rw [checkLayersFrom]
    simp only [Outcome.check_bind_eq_ok, checkOps_iff, ih, List.mem_append, List.mem_reverse,
      List.mem_map, List.forall_mem_cons]
    refine ⟨fun h => ?_, fun h => ?_⟩
    · obtain ⟨hl, h⟩ := h
      refine ⟨fun m hm => ?_, fun root hr => h root (.inr hr)⟩
      rcases hm.cases_root with rfl | ⟨key, b, hb, hw⟩
      · exact hl
      · exact h b (.inl ⟨_, hb, rfl⟩) m hw
    · obtain ⟨hl, h⟩ := h
      refine ⟨hl layer .root, fun root hr m hm => ?_⟩
      rcases hr with ⟨⟨key, b⟩, hb, rfl⟩ | hr
      · exact hl m (.of_lower hb hm)
      · exact h root hr m hm

/-- **`check_layers` accepts exactly the well-formed proofs.** For every proof
that decodes: every layer at every depth is well formed; a well-formed
layer's opaque `Hash` nodes are leaves of its tree; and on every op sequence
the bit stack takes the step the tree stack takes, until an op pops too far,
goes under a `Hash` or carries a value that doesn't decode. -/
theorem check_layers_iff (proof : Bytes) :
    (checkLayers deps decode proof = .ok () ↔
      ∃ v0, decodeEnvelope deps proof = .ok v0 ∧
        ∀ layer, LayerProof.Within v0.rootLayer layer → LayerWellFormed deps decode layer) ∧
    (∀ (ops : List (Op D)) (t : ProofTree D), WellFormed decode ops → runTrees [] ops = some [t] →
      t.HashesAreLeaves) ∧
    (∀ (stack : List (ProofTree D)) (op : Op D) (s : List Bool),
      checkOp decode (bits stack) op = .ok s ↔
        ∃ stack', stepTrees stack op = some stack' ∧ SparesHash stack op ∧ Decodes decode op ∧
          s = bits stack') := by
  have hall : ∀ v0 : GroveDBProofV0, checkAllLayers deps decode v0 = .ok () ↔
      ∀ layer, LayerProof.Within v0.rootLayer layer → LayerWellFormed deps decode layer := by
    intro v0
    rw [checkAllLayers, checkLayersFrom_eq_ok]
    simp
  refine ⟨?_, fun ops t h ht => h.hashesAreLeaves ht, fun stack op s => checkOp_eq_ok⟩
  rw [checkLayers, Outcome.bind_eq_ok]
  simp only [hall]

end Grove
end WillowSdk
