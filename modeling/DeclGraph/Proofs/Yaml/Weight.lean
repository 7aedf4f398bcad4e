/-
  Weights of texts.

  What is read weighs no more than the part of the text that it is read from, whatever the characters
  weigh, as long as blanks weigh nothing and a backslash the most.

  * `Weight`: weights of characters, and of the mark of a text;
  * `flowCosts` and `blockCosts`: a node weighs no more than what is passed when it is read.
-/
import DeclGraph.Proofs.Except
import DeclGraph.Proofs.Yaml.Block

namespace DeclGraph.Yaml

open Cursor

/-! ## Weights -/

/-- Weights of characters, and of the mark that makes a scalar a text. -/
structure Weight where
  of : Char → Nat
  mark : Nat
  of_gap : ∀ y, isGap y = true → of y = 0
  of_le : ∀ y, of y ≤ of '\\'
  mark_le : ∀ y ∈ ['\'', '"', '|', '>', '!'], mark ≤ of y

namespace Weight

/-- The weight of a text. -/
def total (W : Weight) : List Char → Nat
  | [] => 0
  | y :: w => W.of y + W.total w

/-- The weight of some texts. -/
def texts (W : Weight) : List String → Nat
  | [] => 0
  | s :: ss => W.total s.toList + W.texts ss

mutual

/-- The weight of the texts of a node that is no mapping. -/
def node (W : Weight) : Node → Nat
  | .plain s => W.total s.toList
  | .text s => W.total s.toList + W.mark
  | .list xs => W.items xs
  | .mapping _ => 0

/-- The weight of some nodes. -/
def items (W : Weight) : List Node → Nat
  | [] => 0
  | x :: xs => W.node x + W.items xs

end

/-- The weight of a tag. -/
def tag (W : Weight) (tagged : Bool) : Nat := if tagged then W.mark else 0

variable {W : Weight} {c c' c'' : Cursor} {u v w cs : List Char}

@[simp] theorem total_nil : W.total [] = 0 := rfl

@[simp] theorem total_cons (y : Char) (w : List Char) : W.total (y :: w) = W.of y + W.total w := rfl

@[simp] theorem total_append (u v : List Char) : W.total (u ++ v) = W.total u + W.total v := by
  induction u with
  | nil => exact (Nat.zero_add _).symm
  | cons y u ih => rw [List.cons_append, total_cons, total_cons, ih, Nat.add_assoc]

theorem total_eq_zero (h : ∀ y ∈ u, W.of y = 0) : W.total u = 0 := by
  induction u with
  | nil => rfl
  | cons y u ih =>
    obtain ⟨hy, hu⟩ := List.forall_mem_cons.1 h
    rw [total_cons, hy, ih hu]

theorem total_of_gaps (h : ∀ y ∈ u, isGap y = true) : W.total u = 0 :=
  total_eq_zero fun y hy => W.of_gap y (h y hy)

theorem total_solids (w : List Char) : W.total (solids w) = W.total w := by
  induction w with
  | nil => rfl
  | cons y w ih =>
    by_cases hy : isGap y = true
    · rw [solids, List.filter_cons_of_neg (by simp [hy]), total_cons, W.of_gap y hy, Nat.zero_add]
      exact ih
    · rw [solids, List.filter_cons_of_pos (by simp [hy]), total_cons, total_cons]
      exact congrArg _ ih

theorem total_le_of_sublist (h : u.Sublist v) : W.total u ≤ W.total v := by
  induction h with
  | slnil => exact Nat.le_refl 0
  | cons y _ ih => rw [total_cons]; omega
  | cons_cons y _ ih => rw [total_cons, total_cons]; omega

theorem mark_le_of {y : Char} (hy : y ∈ ['\'', '"', '|', '>', '!']) (w : List Char) :
    W.mark ≤ W.total (y :: w) := by
  rw [total_cons]
  exact Nat.le_trans (W.mark_le y hy) (Nat.le_add_right _ _)

/-! ## Scalars -/

theorem total_gapMeaning (h : ∀ y ∈ u, isGap y = true) : W.total (gapMeaning u) = 0 :=
  total_of_gaps (isGap_of_mem_gapMeaning h)

theorem total_le_of_plainRead {indented : Bool} (h : PlainRead indented v cs) :
    W.total cs ≤ W.total v := by
  induction h with
  | word _ => exact Nat.le_refl _
  | more _ hu _ _ _ ih =>
    simp only [total_append, total_gapMeaning fun y hy => isGap_of_space_or_break (hu y hy)]
    omega

theorem total_le_of_singleRead (h : SingleRead v cs) : W.total cs + W.mark ≤ W.total v := by
  induction h with
  | close =>
    rw [total_nil, Nat.zero_add]
    exact mark_le_of (by simp) []
  | quote _ ih => simp only [total_cons]; omega
  | char _ _ _ ih => simp only [total_cons]; omega
  | gap hu _ _ ih =>
    simp only [total_append, total_gapMeaning fun y hy => (hu y hy).isGap]
    omega

theorem total_le_of_doubleRead (h : DoubleRead v cs) : W.total cs + W.mark ≤ W.total v := by
  induction h with
  | close =>
    rw [total_nil, Nat.zero_add]
    exact mark_le_of (by simp) []
  | char _ _ _ ih => simp only [total_cons]; omega
  | @escape mark y e v cs _ _ ih =>
    have hy := W.of_le y
    simp only [total_cons, total_append]
    omega
  | @ended b u v cs hu _ _ ih =>
    have hbreaks : W.total (u.filter isBreak) = 0 :=
      total_of_gaps fun y hy => (hu y (List.mem_of_mem_filter hy)).isGap
    simp only [total_cons, total_append, hbreaks]
    omega
  | gap hu _ ih =>
    simp only [total_append, total_gapMeaning fun y hy => (hu y hy).isGap]
    omega

/-! ## What is passed -/

/-- Whether something weighs no more than what is passed from one place to another. -/
def Costs (W : Weight) (n : Nat) (c c' : Cursor) : Prop := ∃ w, c.Passes w c' ∧ n ≤ W.total w

theorem Costs.of_passes (h : c.Passes w c') : W.Costs 0 c c' := ⟨w, h, Nat.zero_le _⟩

theorem Costs.trans {m n : Nat} (h : W.Costs m c c') (h' : W.Costs n c' c'') :
    W.Costs (m + n) c c'' := by
  obtain ⟨u, hu, hm⟩ := h
  obtain ⟨v, hv, hn⟩ := h'
  exact ⟨u ++ v, hu.trans hv, by rw [total_append]; exact Nat.add_le_add hm hn⟩

theorem Costs.mono {m n : Nat} (h : W.Costs n c c') (hmn : m ≤ n) : W.Costs m c c' := by
  obtain ⟨w, hw, hn⟩ := h
  exact ⟨w, hw, Nat.le_trans hmn hn⟩

theorem costs_refl (W : Weight) (c : Cursor) : W.Costs 0 c c := .of_passes (.refl c)

theorem costs_skip (W : Weight) (c : Cursor) : W.Costs 0 c c.skip := by
  obtain ⟨w, hw⟩ := passes_skip c
  exact .of_passes hw

theorem costs_one {y : Char} {rest : List Char} (W : Weight) (h : c.rest = y :: rest)
    (hy : isBreak y = false) : W.Costs (W.of y) c (c.forward 1) :=
  ⟨[y], passes_one h hy, Nat.le_refl _⟩

/-- Something that stands after a character and what may be passed over. -/
theorem Costs.after_mark {y : Char} {rest : List Char} {n : Nat} (h : W.Costs n (c.forward 1).skip c')
    (hrest : c.rest = y :: rest) (hy : isBreak y = false) : W.Costs n c c' := by
  refine (((costs_one W hrest hy).trans (W.costs_skip _)).trans h).mono ?_
  omega

theorem Costs.skip {n : Nat} (h : W.Costs n c c') : W.Costs n c c'.skip :=
  (h.trans (W.costs_skip c')).mono (Nat.le_refl _)

theorem node_plainNode (tagged : Bool) (cs : List Char) :
    W.node (plainNode tagged cs) = W.total cs + W.tag tagged := by
  cases tagged with
  | true => rw [plainNode, if_pos rfl, node, String.toList_ofList]; rfl
  | false => rw [plainNode, if_neg Bool.false_ne_true, node, String.toList_ofList]; rfl

theorem textNode_eq_ok {found : Option (List Char × Cursor)} {x : Node}
    (h : textNode found = .ok (x, c')) : ∃ cs, found = some (cs, c') ∧ x = .text (String.ofList cs) := by
  cases found with
  | none => cases h
  | some found =>
    cases h
    exact ⟨_, rfl, rfl⟩

theorem isBreak_of_anchor {y : Char} (h : (y.isAlphanum || y == '-' || y == '_') = true) :
    isBreak y = false := by
  have hbreaks : ∀ z ∈ ['\n', '\r', '\u0085', '\u2028', '\u2029'],
      (z.isAlphanum || z == '-' || z == '_') = false := by decide
  refine eq_false_of_ne_true fun hbreak => ?_
  rw [hbreaks y (isBreak_iff.1 hbreak)] at h
  cases h

/-- The tags and anchors before a node. -/
theorem properties?_costs {fuel : Nat} : ∀ {c : Cursor} {tagged tagged' : Bool},
    properties? fuel tagged c = some (tagged', c') → W.Costs (W.tag tagged' - W.tag tagged) c c' := by
  induction fuel with
  | zero => exact fun h => nomatch h
  | succ fuel ih =>
    intro c tagged tagged' h
    rw [properties?] at h
    split at h
    · rename_i rest hrest
      dsimp only at h
      split at h
      · cases h
      · have hname := passes_name hrest (by decide) _ fun y => isBreak_of_anchor
        exact (((Costs.of_passes hname).skip).trans (ih h)).mono (by omega)
    · rename_i rest hrest
      dsimp only at h
      split at h
      · have hname := passes_name hrest (by decide) (fun ch => !isGap ch)
          fun y hy => isBreak_of_isGap (by simpa using hy)
        have hmark : W.Costs W.mark c _ := ⟨_, hname, mark_le_of (by simp) _⟩
        refine (hmark.skip.trans (ih h)).mono ?_
        have htag : W.tag tagged' ≤ W.mark := by
          cases tagged' with
          | true => exact Nat.le_refl _
          | false => exact Nat.zero_le _
        omega
      · cases h
    · cases h
      rw [Nat.sub_self]
      exact costs_refl W _

theorem properties_costs {tagged : Bool} (h : properties c = .ok (tagged, c')) :
    W.Costs (W.tag tagged) c c' := by
  rw [properties] at h
  split at h
  · rename_i found hfound
    cases h
    exact properties?_costs hfound
  · cases h

/-! ## Nodes in flow style -/

/-- Whether the nodes in flow style weigh no more than what is passed, within some fuel. -/
structure FlowCosts (W : Weight) (fuel : Nat) : Prop where
  node : ∀ {flow : Bool} {indent : Int} {tagged : Bool} {depth : Nat} {c c' : Cursor} {x : Node},
    flowNode flow indent tagged fuel depth c = .ok (x, c') → W.Costs (W.node x - W.tag tagged) c c'
  value : ∀ {indent : Int} {depth : Nat} {c c' : Cursor} {x : Node},
    flowValue indent fuel depth c = .ok (x, c') → W.Costs (W.node x) c c'
  member : ∀ {indent : Int} {line depth : Nat} {c c' : Cursor} {x : Node},
    flowMember indent line fuel depth c = .ok (x, c') → W.Costs 0 c c'
  item : ∀ {indent : Int} {line depth : Nat} {c c' : Cursor} {x y : Node},
    flowItem indent line x fuel depth c = .ok (y, c') → W.node y ≤ W.node x ∧ W.Costs 0 c c'
  items : ∀ {indent : Int} {depth : Nat} {c c' : Cursor} {xs : List Node},
    flowItems indent fuel depth c = .ok (xs, c') → W.Costs (W.items xs) c c'
  members : ∀ {indent : Int} {depth : Nat} {c c' : Cursor} {ms : List (Node × Node)},
    flowMembers indent fuel depth c = .ok (ms, c') → W.Costs 0 c c'

variable {fuel depth line : Nat} {indent : Int} {flow tagged : Bool} {x y : Node}

/-- A scalar in quotes. -/
theorem textNode_costs {mark : Char} {rest : List Char} {found : Option (List Char × Cursor)}
    (hrest : c.rest = mark :: rest) (hmark : isBreak mark = false)
    (hread : ∀ cs, found = some (cs, c') → W.Costs (W.total cs + W.mark) (c.forward 1) c')
    (h : textNode found = .ok (x, c')) : W.Costs (W.node x) c c' := by
  obtain ⟨cs, hfound, rfl⟩ := textNode_eq_ok h
  refine ((costs_one W hrest hmark).trans (hread cs hfound)).mono ?_
  rw [node, String.toList_ofList]
  omega

theorem FlowCosts.flowNode (ih : W.FlowCosts fuel)
    (h : flowNode flow indent tagged (fuel + 1) depth c = .ok (x, c')) :
    W.Costs (W.node x - W.tag tagged) c c' := by
  rw [flowNode.eq_def] at h
  dsimp only at h
  split at h
  · rename_i rest hrest
    split at h
    · cases h
    split at h
    · cases h
    · obtain ⟨⟨xs, after⟩, hxs, heq⟩ := bind_eq_ok.1 h
      cases heq
      exact ((ih.items hxs).after_mark hrest (by decide)).mono (Nat.sub_le _ _)
  · rename_i rest hrest
    split at h
    · cases h
    split at h
    · cases h
    · obtain ⟨⟨ms, after⟩, hms, heq⟩ := bind_eq_ok.1 h
      cases heq
      exact ((ih.members hms).after_mark hrest (by decide)).mono (by rw [Weight.node]; omega)
  · rename_i rest hrest
    refine (textNode_costs hrest (by decide) (fun cs hcs => ?_) h).mono (Nat.sub_le _ _)
    obtain ⟨v, hv, hread⟩ := single?_read hcs
    exact ⟨v, hv, total_le_of_singleRead hread⟩
  · rename_i rest hrest
    refine (textNode_costs hrest (by decide) (fun cs hcs => ?_) h).mono (Nat.sub_le _ _)
    obtain ⟨v, hv, hread⟩ := double?_read hcs
    exact ⟨v, hv, total_le_of_doubleRead hread⟩
  · split at h
    · obtain ⟨cs, after, hplain⟩ :
        ∃ cs after, plain flow indent (c.rest.length + 1) c = (cs, after) := ⟨_, _, rfl⟩
      rw [hplain] at h
      cases h
      obtain ⟨v, hv, hread⟩ := plain_read false nofun hplain
      refine ⟨v, hv, ?_⟩
      have hle := total_le_of_plainRead (W := W) hread
      rw [node_plainNode]
      dsimp only
      omega
    · cases h

theorem FlowCosts.flowValue (ih : W.FlowCosts fuel)
    (h : flowValue indent (fuel + 1) depth c = .ok (x, c')) : W.Costs (W.node x) c c' := by
  rw [Yaml.flowValue.eq_def] at h
  dsimp only at h
  obtain ⟨⟨tagged, next⟩, hproperties, h⟩ := bind_eq_ok.1 h
  have htag := properties_costs (W := W) hproperties
  have hnode (h : Yaml.flowNode true indent tagged fuel depth next = .ok (x, c')) :
      W.Costs (W.node x) c c' := (htag.trans (ih.node h)).mono (by omega)
  have hempty (h : (.ok (plainNode tagged [], next) : Except Flaw (Node × Cursor)) = .ok (x, c')) :
      W.Costs (W.node x) c c' := by
    cases h
    exact htag.mono (by rw [node_plainNode, total_nil, Nat.zero_add])
  dsimp only at h
  split at h
  all_goals first
    | exact hnode h
    | split at h
      · exact hnode h
      · exact hempty h

theorem FlowCosts.flowMember (ih : W.FlowCosts fuel)
    (h : flowMember indent line (fuel + 1) depth c = .ok (x, c')) : W.Costs 0 c c' := by
  rw [Yaml.flowMember.eq_def] at h
  dsimp only at h
  split at h
  · rename_i rest hrest
    split at h
    · obtain ⟨⟨y, after⟩, hy, heq⟩ := bind_eq_ok.1 h
      cases heq
      exact (((ih.value hy).after_mark hrest (by decide)).skip).mono (Nat.zero_le _)
    · cases h
  · cases h
    exact costs_refl W c

theorem FlowCosts.flowItem (ih : W.FlowCosts fuel)
    (h : flowItem indent line x (fuel + 1) depth c = .ok (y, c')) :
    W.node y ≤ W.node x ∧ W.Costs 0 c c' := by
  rw [Yaml.flowItem.eq_def] at h
  dsimp only at h
  split at h
  · split at h
    · cases h
    · obtain ⟨⟨z, after⟩, hz, heq⟩ := bind_eq_ok.1 h
      cases heq
      exact ⟨Nat.zero_le _, ih.member hz⟩
  · cases h
    exact ⟨Nat.le_refl _, costs_refl W c⟩

theorem FlowCosts.flowItems (ih : W.FlowCosts fuel) {xs : List Node}
    (h : flowItems indent (fuel + 1) depth c = .ok (xs, c')) : W.Costs (W.items xs) c c' := by
  rw [Yaml.flowItems.eq_def] at h
  dsimp only at h
  split at h
  · rename_i rest hrest
    cases h
    exact (costs_one W hrest (by decide)).mono (Nat.zero_le _)
  · cases h
  · obtain ⟨⟨x, after⟩, hx, h⟩ := bind_eq_ok.1 h
    obtain ⟨⟨y, next⟩, hy, h⟩ := bind_eq_ok.1 h
    obtain ⟨hle, hcosts⟩ := ih.item hy
    have hitem : W.Costs (W.node y) c next := (((ih.value hx).skip).trans hcosts).mono hle
    dsimp only at h
    split at h
    · rename_i rest hrest
      obtain ⟨⟨xs, after⟩, hxs, heq⟩ := bind_eq_ok.1 h
      cases heq
      exact hitem.trans ((ih.items hxs).after_mark hrest (by decide))
    · rename_i rest hrest
      cases h
      exact (hitem.trans (costs_one W hrest (by decide))).mono (by rw [Weight.items, Weight.items]; omega)
    · cases h

theorem FlowCosts.flowMembers (ih : W.FlowCosts fuel) {ms : List (Node × Node)}
    (h : flowMembers indent (fuel + 1) depth c = .ok (ms, c')) : W.Costs 0 c c' := by
  rw [Yaml.flowMembers.eq_def] at h
  dsimp only at h
  split at h
  · rename_i rest hrest
    cases h
    exact (costs_one W hrest (by decide)).mono (Nat.zero_le _)
  · cases h
  · obtain ⟨⟨x, after⟩, hx, h⟩ := bind_eq_ok.1 h
    obtain ⟨⟨y, next⟩, hy, h⟩ := bind_eq_ok.1 h
    have hmember : W.Costs 0 c next := (((ih.value hx).skip).trans (ih.member hy)).mono (Nat.zero_le _)
    dsimp only at h
    split at h
    · rename_i rest hrest
      obtain ⟨⟨ms, after⟩, hms, heq⟩ := bind_eq_ok.1 h
      cases heq
      exact hmember.trans ((ih.members hms).after_mark hrest (by decide))
    · rename_i rest hrest
      cases h
      exact (hmember.trans (costs_one W hrest (by decide))).mono (Nat.zero_le _)
    · cases h

/-- **A node in flow style weighs no more than what is passed.** -/
theorem flowCosts (W : Weight) (fuel : Nat) : W.FlowCosts fuel := by
  induction fuel with
  | zero => exact ⟨nofun, nofun, nofun, nofun, nofun, nofun⟩
  | succ fuel ih => exact ⟨ih.flowNode, ih.flowValue, ih.flowMember, ih.flowItem, ih.flowItems, ih.flowMembers⟩

/-! ## Nodes in block style -/

/-- Whether the nodes in block style weigh no more than what is passed, within some fuel. -/
structure BlockCosts (W : Weight) (fuel : Nat) : Prop where
  node : ∀ {indent : Int} {blocks : Bool} {depth : Nat} {c c' : Cursor} {x : Node},
    Yaml.node indent blocks fuel depth c = .ok (x, c') → W.Costs (W.node x) c c'
  content : ∀ {indent : Int} {blocks tagged : Bool} {depth : Nat} {c c' : Cursor} {x : Node},
    Yaml.content indent blocks tagged fuel depth c = .ok (x, c') →
      W.Costs (W.node x - W.tag tagged) c c'
  value : ∀ {column depth : Nat} {c c' : Cursor} {x : Node},
    blockValue column fuel depth c = .ok (x, c') → W.Costs (W.node x) c c'
  members : ∀ {column depth : Nat} {key : Node} {c c' : Cursor} {ms : List (Node × Node)},
    blockMembers column key fuel depth c = .ok (ms, c') → W.Costs 0 c c'
  list : ∀ {column depth : Nat} {c c' : Cursor} {x : Node},
    blockList column fuel depth c = .ok (x, c') → (∃ y rest, c.rest = y :: rest ∧ isBreak y = false) →
      W.Costs (W.node x) c c'
  items : ∀ {column depth : Nat} {c c' : Cursor} {xs : List Node},
    blockItems column fuel depth c = .ok (xs, c') → (∃ y rest, c.rest = y :: rest ∧ isBreak y = false) →
      W.Costs (W.items xs) c c'

variable {column : Nat} {blocks : Bool} {key : Node}

theorem BlockCosts.node_succ (ih : W.BlockCosts fuel)
    (h : Yaml.node indent blocks (fuel + 1) depth c = .ok (x, c')) : W.Costs (W.node x) c c' := by
  rw [Yaml.node.eq_def] at h
  dsimp only at h
  split at h
  · cases h
    exact costs_refl W c
  · obtain ⟨⟨tagged, next⟩, hproperties, h⟩ := bind_eq_ok.1 h
    exact ((properties_costs hproperties).trans (ih.content h)).mono (by dsimp only; omega)

theorem atItem_head (h : atItem c = true) : ∃ rest, c.rest = '-' :: rest := by
  rw [atItem] at h
  split at h
  · rename_i rest hrest
    exact ⟨rest, hrest⟩
  · cases h

/-- A block scalar. -/
theorem blockScalar_costs {mark : Char} {rest : List Char} {folded : Bool}
    (hrest : c.rest = mark :: rest) (hmark : mark ∈ ['|', '>'])
    (h : textNode (blockScalar? folded indent (c.forward 1)) = .ok (x, c')) :
    W.Costs (W.node x) c c' := by
  have hbreak : ∀ y ∈ ['|', '>'], isBreak y = false := by decide
  have hmarks : ∀ y ∈ ['|', '>'], y ∈ ['\'', '"', '|', '>', '!'] := by decide
  have hweight := W.mark_le mark (hmarks mark hmark)
  obtain ⟨cs, hcs, rfl⟩ := textNode_eq_ok h
  obtain ⟨v, hv, -, hsolids⟩ := blockScalar?_read hcs
  have hle := total_le_of_sublist (W := W) hsolids
  rw [total_solids, total_solids] at hle
  refine ⟨mark :: v, (passes_one hrest (hbreak mark hmark)).trans hv, ?_⟩
  rw [Weight.node, String.toList_ofList, total_cons]
  omega

theorem afterColon?_costs {colon : Cursor} (h : afterColon? line c = some colon) :
    W.Costs 0 c colon := by
  obtain ⟨u, hu, -⟩ := afterColon?_passes h
  exact .of_passes hu

theorem BlockCosts.content_succ (ih : W.BlockCosts fuel)
    (h : Yaml.content indent blocks tagged (fuel + 1) depth c = .ok (x, c')) :
    W.Costs (W.node x - W.tag tagged) c c' := by
  rw [Yaml.content.eq_def] at h
  dsimp only at h
  split at h
  · cases h
    rw [node_plainNode, total_nil, Nat.zero_add, Nat.sub_self]
    exact costs_refl W _
  split at h
  · rename_i hitem
    obtain ⟨rest, hrest⟩ := atItem_head hitem
    split at h
    · exact (ih.list h ⟨_, rest, hrest, by decide⟩).mono (Nat.sub_le _ _)
    · cases h
  split at h
  · exact (blockScalar_costs ‹_› (by simp) h).mono (Nat.sub_le _ _)
  · exact (blockScalar_costs ‹_› (by simp) h).mono (Nat.sub_le _ _)
  · obtain ⟨⟨y, after⟩, hy, h⟩ := bind_eq_ok.1 h
    have hflow := (flowCosts W fuel).node hy
    dsimp only at h
    split at h
    · cases h
      exact hflow
    · rename_i colon hcolon
      split at h
      · split at h
        · cases h
        · obtain ⟨⟨ms, after'⟩, hms, heq⟩ := bind_eq_ok.1 h
          cases heq
          exact (hflow.trans ((afterColon?_costs hcolon).trans (ih.members hms))).mono
            (by rw [Weight.node]; omega)
      · cases h

theorem BlockCosts.value_succ (ih : W.BlockCosts fuel)
    (h : blockValue column (fuel + 1) depth c = .ok (x, c')) : W.Costs (W.node x) c c' := by
  rw [blockValue.eq_def] at h
  dsimp only at h
  split at h
  · rename_i hitem
    obtain ⟨rest, hrest⟩ := atItem_head hitem.2.2.1
    exact ih.list h ⟨_, rest, hrest, by decide⟩
  · exact ih.node h

theorem BlockCosts.members_succ (ih : W.BlockCosts fuel) {ms : List (Node × Node)}
    (h : blockMembers column key (fuel + 1) depth c = .ok (ms, c')) : W.Costs 0 c c' := by
  rw [blockMembers.eq_def] at h
  dsimp only at h
  obtain ⟨⟨y, after⟩, hy, h⟩ := bind_eq_ok.1 h
  have hvalue : W.Costs 0 c after.skip :=
    (((W.costs_skip c).trans (ih.value hy)).skip).mono (Nat.zero_le _)
  dsimp only at h
  split at h
  · cases h
    exact hvalue
  split at h
  · cases h
  obtain ⟨⟨k, afterKey⟩, hk, h⟩ := bind_eq_ok.1 h
  dsimp only at h
  split at h
  · cases h
  · rename_i colon hcolon
    obtain ⟨⟨ms, after'⟩, hms, heq⟩ := bind_eq_ok.1 h
    cases heq
    have hkey := (flowCosts W fuel).node hk
    exact (hvalue.trans (hkey.trans ((afterColon?_costs hcolon).trans (ih.members hms)))).mono
      (Nat.zero_le _)

theorem BlockCosts.list_succ (ih : W.BlockCosts fuel)
    (h : blockList column (fuel + 1) depth c = .ok (x, c'))
    (hc : ∃ y rest, c.rest = y :: rest ∧ isBreak y = false) : W.Costs (W.node x) c c' := by
  rw [blockList.eq_def] at h
  dsimp only at h
  split at h
  · cases h
  · obtain ⟨⟨xs, after⟩, hxs, heq⟩ := bind_eq_ok.1 h
    cases heq
    exact ih.items hxs hc

theorem BlockCosts.items_succ (ih : W.BlockCosts fuel) {xs : List Node}
    (h : blockItems column (fuel + 1) depth c = .ok (xs, c'))
    (hc : ∃ y rest, c.rest = y :: rest ∧ isBreak y = false) : W.Costs (W.items xs) c c' := by
  obtain ⟨mark, rest, hrest, hmark⟩ := hc
  rw [blockItems.eq_def] at h
  dsimp only at h
  obtain ⟨⟨y, after⟩, hy, h⟩ := bind_eq_ok.1 h
  have hitem : W.Costs (W.node y) c after.skip := ((ih.node hy).after_mark hrest hmark).skip
  have hone : W.items [y] = W.node y := rfl
  dsimp only at h
  split at h
  · cases h
    rwa [hone]
  split at h
  · cases h
  split at h
  · rename_i hnext
    obtain ⟨rest', hrest'⟩ := atItem_head hnext
    obtain ⟨⟨xs, after'⟩, hxs, heq⟩ := bind_eq_ok.1 h
    cases heq
    exact hitem.trans (ih.items hxs ⟨_, rest', hrest', by decide⟩)
  · cases h
    rwa [hone]

/-- **A node weighs no more than what is passed.** -/
theorem blockCosts (W : Weight) (fuel : Nat) : W.BlockCosts fuel := by
  induction fuel with
  | zero => exact ⟨nofun, nofun, nofun, nofun, nofun, nofun⟩
  | succ fuel ih =>
    exact ⟨ih.node_succ, ih.content_succ, ih.value_succ, ih.members_succ, ih.list_succ, ih.items_succ⟩

end Weight

end DeclGraph.Yaml
