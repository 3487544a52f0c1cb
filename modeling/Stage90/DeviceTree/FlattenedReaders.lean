import Stage90.DeviceTree.Flattened

/-!
# The readers of a well-formed blob

The token loop over a structure block is a fold over the tokens of its tree, and each reader's
fold is read off the tree.
-/

set_option autoImplicit false

namespace Stage90.Fdt

open Stage90.Lib

/-! ## One token -/

section Token
variable {blob more : Bytes} {pos : Nat}

theorem unpackWord_be32 {n : Nat} (at_ : blob.drop pos = be32 n ++ more) (small : n < 2 ^ 32) :
    unpackWord blob pos = some n := by
  rw [unpackWord, at_]
  simp only [be32, List.cons_append, UInt8.toNat_ofNat']
  congr 1
  omega

theorem drop_behind {xs : Bytes} (at_ : blob.drop pos = xs ++ more) :
    blob.drop (pos + xs.length) = more := by
  rw [← List.drop_drop, at_, List.drop_left]

theorem cstr_behind {name : Bytes} (at_ : blob.drop pos = name ++ 0 :: more) (clean : 0 ∉ name) :
    cstr blob pos = some name := by
  have leads : (name ++ 0 :: more).takeWhile (· ≠ 0) = name := by
    have keeps : ∀ b ∈ name, decide (b ≠ 0) = true := fun b member => by
      rw [decide_eq_true_eq]
      rintro rfl
      exact clean member
    rw [List.takeWhile_append_of_pos keeps]
    simp
  rw [cstr, at_, if_pos (by simp), leads]

theorem padding_length (n : Nat) : n + (padding n).length = padded n := by
  rw [padding, List.length_replicate, padded]
  omega

def FdtToken.Sound : FdtToken → Prop
  | .beginNode name => 0 ∉ name
  | .prop nameOff data => data.length < 2 ^ 32 ∧ nameOff < 2 ^ 32
  | _ => True

theorem tokenAt_encode {t : FdtToken} (sound : t.Sound)
    (at_ : blob.drop pos = t.encode ++ more) :
    tokenAt blob pos = some (t, pos + t.encode.length) := by
  cases t with
  | beginNode name =>
      simp only [FdtToken.encode, List.append_assoc] at at_
      have name_at := drop_behind at_
      have long : (be32 1).length = 4 := rfl
      rw [long] at name_at
      rw [tokenAt, unpackWord_be32 at_ (by decide)]
      simp only [if_true]
      rw [cstr_behind (by rw [name_at]; rfl) sound, Option.map_some]
      have size := padding_length (name.length + 1)
      simp only [FdtToken.encode, List.length_append, long, List.length_singleton]
      congr 2
      omega
  | endNode =>
      rw [tokenAt, unpackWord_be32 at_ (by decide)]
      rfl
  | nop =>
      rw [tokenAt, unpackWord_be32 at_ (by decide)]
      rfl
  | other =>
      rw [tokenAt, unpackWord_be32 at_ (by decide)]
      rfl
  | prop nameOff data =>
      simp only [FdtToken.encode, List.append_assoc] at at_
      have long : ∀ n, (be32 n).length = 4 := fun _ => rfl
      have length_at := drop_behind at_
      rw [long] at length_at
      have off_at := drop_behind length_at
      rw [long] at off_at
      have data_at := drop_behind off_at
      rw [long] at data_at
      have size := padding_length data.length
      rw [tokenAt, unpackWord_be32 at_ (by decide)]
      have three : (3 : Nat) ≠ 1 ∧ (3 : Nat) ≠ 2 := by decide
      simp only [if_neg three.1, if_neg three.2, if_true]
      rw [unpackWord_be32 length_at sound.1, unpackWord_be32 off_at sound.2]
      have value : (blob.drop (pos + 4 + 8)).take data.length = data := by
        rw [show pos + 4 + 8 = pos + 4 + 4 + 4 from rfl, data_at, List.take_left]
      simp only [FdtToken.encode, List.length_append, long]
      rw [value]
      congr 2
      omega

theorem encode_long (t : FdtToken) : 4 ≤ t.encode.length := by
  cases t <;> simp [FdtToken.encode, be32]

end Token

/-! ## The loop is a fold -/

section Loop
variable {S : Type} (act : S → FdtToken → Act S)

def foldAct : S → List FdtToken → Act S
  | s, [] => .go s
  | s, t :: tokens =>
      match act s t with
      | .go s => foldAct s tokens
      | .leave s => .leave s
      | .raise => .raise

def Act.andThen (a : Act S) (next : S → Act S) : Act S :=
  match a with
  | .go s => next s
  | .leave s => .leave s
  | .raise => .raise

def Act.outcome : Act S → Outcome S
  | .go s => .returned s
  | .leave s => .returned s
  | .raise => .raised

variable {act}

theorem foldAct_cons (s : S) (t : FdtToken) (tokens : List FdtToken) :
    foldAct act s (t :: tokens) = (act s t).andThen fun s => foldAct act s tokens := by
  rw [foldAct]
  cases act s t <;> rfl

theorem foldAct_append (s : S) (tokens more : List FdtToken) :
    foldAct act s (tokens ++ more) = (foldAct act s tokens).andThen fun s => foldAct act s more := by
  induction tokens generalizing s with
  | nil => rfl
  | cons t tokens ih =>
      rw [List.cons_append, foldAct_cons, foldAct_cons]
      cases act s t with
      | go s => exact ih s
      | leave s => rfl
      | raise => rfl

theorem foldAct_filter (nops : ∀ s, act s .nop = .go s) (s : S) (tokens : List FdtToken) :
    foldAct act s (tokens.filter (· ≠ .nop)) = foldAct act s tokens := by
  induction tokens generalizing s with
  | nil => rfl
  | cons t tokens ih =>
      by_cases nop : t = .nop
      · rw [List.filter_cons_of_neg (by simp [nop]), foldAct_cons, nop, nops, ih]
        rfl
      · rw [List.filter_cons_of_pos (by simp [nop]), foldAct_cons, foldAct_cons]
        cases act s t with
        | go s => exact ih s
        | leave s => rfl
        | raise => rfl

variable {blob more : Bytes}

theorem tokenLoop_fold {tokens : List FdtToken} (sound : ∀ t ∈ tokens, t.Sound)
    (others : ∀ s, act s .other = .leave s) : ∀ {pos fuel : Nat} {s : S},
    blob.drop pos = tokens.flatMap FdtToken.encode ++ FdtToken.encode .other ++ more →
    tokens.length < fuel →
      tokenLoop act blob fuel pos s = some (foldAct act s tokens).outcome := by
  induction tokens with
  | nil =>
      intro pos fuel s at_ enough
      obtain ⟨fuel, rfl⟩ := Nat.exists_eq_succ_of_ne_zero (Nat.ne_zero_of_lt enough)
      have inside : pos < blob.length := by
        by_contra outside
        rw [List.drop_eq_nil_of_le (Nat.not_lt.mp outside)] at at_
        exact absurd at_ nofun
      rw [List.flatMap_nil, List.nil_append] at at_
      rw [tokenLoop, if_pos inside, tokenAt_encode (t := .other) trivial at_]
      simp only [others]
      rfl
  | cons t tokens ih =>
      intro pos fuel s at_ enough
      obtain ⟨fuel, rfl⟩ := Nat.exists_eq_succ_of_ne_zero (Nat.ne_zero_of_lt enough)
      rw [List.flatMap_cons, List.append_assoc, List.append_assoc] at at_
      have inside : pos < blob.length := by
        by_contra outside
        rw [List.drop_eq_nil_of_le (Nat.not_lt.mp outside)] at at_
        have long := congrArg List.length at_
        have four := encode_long t
        simp only [List.length_nil, List.length_append] at long
        omega
      rw [tokenLoop, if_pos inside, tokenAt_encode (sound t List.mem_cons_self) at_, foldAct_cons]
      cases found : act s t with
      | go s' =>
          simp only [found]
          exact ih (fun u member => sound u (List.mem_cons_of_mem _ member))
            (by rw [List.append_assoc]; exact drop_behind at_) (Nat.lt_of_succ_lt_succ enough)
      | leave s' => simp only [found]; rfl
      | raise => simp only [found]; rfl

theorem length_flatMap_encode (tokens : List FdtToken) :
    tokens.length ≤ (tokens.flatMap FdtToken.encode).length := by
  induction tokens with
  | nil => exact Nat.le_refl 0
  | cons t tokens ih =>
      have four := encode_long t
      rw [List.flatMap_cons, List.length_append, List.length_cons]
      omega

/-- As many rounds as there are bytes are enough. -/
theorem tokenLoop_blob {tokens : List FdtToken} {offStruct : Nat} (sound : ∀ t ∈ tokens, t.Sound)
    (others : ∀ s, act s .other = .leave s) (nops : ∀ s, act s .nop = .go s) (s : S)
    (at_ : blob.drop offStruct =
      tokens.flatMap FdtToken.encode ++ FdtToken.encode .other ++ more) :
    tokenLoop act blob (blob.length + 1) offStruct s =
      some (foldAct act s (tokens.filter (· ≠ .nop))).outcome := by
  have enough : tokens.length < blob.length + 1 := by
    have long := congrArg List.length at_
    have least := length_flatMap_encode tokens
    simp only [List.length_drop, List.length_append] at long
    omega
  rw [foldAct_filter nops, tokenLoop_fold sound others at_ enough]

end Loop

/-! ## The tree behind the tokens -/

def paths : List Bytes → Forest FdtNode → List (List Bytes × FdtNode)
  | _, .nil => []
  | above, .node a kids rest =>
      (above ++ [a.name], a) :: (paths (above ++ [a.name]) kids ++ paths above rest)

def FdtNode.tokens (a : FdtNode) : List FdtToken := a.props.map fun p => .prop p.nameOff p.data

def FdtNode.entry (a : FdtNode) : PyDict Bytes Bytes := a.props.map fun p => (p.name, p.data)

theorem foldAct_node {S : Type} {act : S → FdtToken → Act S} (s : S) (a : FdtNode)
    (kids rest : Forest FdtNode) :
    foldAct act s (tokensOf (.node a kids rest)) =
      (act s (.beginNode a.name)).andThen fun s => (foldAct act s a.tokens).andThen fun s =>
        (foldAct act s (tokensOf kids)).andThen fun s => (act s .endNode).andThen fun s =>
          foldAct act s (tokensOf rest) := by
  have shape : tokensOf (.node a kids rest) =
      .beginNode a.name :: (a.tokens ++ (tokensOf kids ++ .endNode :: tokensOf rest)) := by
    rw [tokensOf, FdtNode.tokens]
    simp
  rw [shape, foldAct_cons]
  congr 1
  funext s
  rw [foldAct_append]
  congr 1
  funext s
  rw [foldAct_append]
  congr 1

section Readers
variable {blob : Bytes} {offStr : Nat} {a : FdtNode}

theorem cstr_prop (sound : a.Sound blob offStr) {p : FdtProp} (member : p ∈ a.props) :
    cstr blob (offStr + p.nameOff) = some p.name := by
  obtain ⟨clean, more, same⟩ := sound.strings p member
  rw [List.append_assoc] at same
  exact cstr_behind same.symm clean

/-! ## `fdt_walk` -/

section Walk
variable {want : Bytes}

def taken (want : Bytes) (e : List Bytes × FdtNode) : List (Bytes × Bytes) :=
  if isInfix want (slash :: joinPath e.1) then e.2.entry else []

theorem walk_props (sound : a.Sound blob offStr) (s : WalkState) {props : List FdtProp}
    (subset : ∀ p ∈ props, p ∈ a.props) :
    foldAct (walkAct blob offStr want) s (props.map fun p => .prop p.nameOff p.data) =
      .go { s with out := s.out ++ (if isInfix want (slash :: joinPath s.stack) then
        props.map fun p => (p.name, p.data) else []) } := by
  induction props generalizing s with
  | nil => simp [foldAct]
  | cons p props ih =>
      rw [List.map_cons, foldAct_cons, walkAct, cstr_prop sound (subset p List.mem_cons_self)]
      have later := fun s => ih s fun q member => subset q (List.mem_cons_of_mem p member)
      by_cases wanted : isInfix want (slash :: joinPath s.stack) = true
      · rw [if_pos wanted]
        simp only [Act.andThen]
        rw [later]
        simp [wanted]
      · rw [if_neg wanted]
        simp only [Act.andThen]
        rw [later]
        simp [wanted]

theorem walk_forest {f : Forest FdtNode} (sound : ∀ a ∈ f.preorder, a.Sound blob offStr) :
    ∀ {out : List (Bytes × Bytes)} {stack : List Bytes}, stack ≠ [] →
      foldAct (walkAct blob offStr want) ⟨out, stack⟩ (tokensOf f) =
        .go ⟨out ++ (paths stack f).flatMap (taken want), stack⟩ := by
  induction f with
  | nil => simp [tokensOf, paths, foldAct]
  | node a kids rest kidsIh restIh =>
      intro out stack some_
      have here := sound a List.mem_cons_self
      have below := fun b member => sound b (List.mem_cons_of_mem a (List.mem_append_left _ member))
      have behind := fun b member =>
        sound b (List.mem_cons_of_mem a (List.mem_append_right _ member))
      rw [foldAct_node, walkAct]
      simp only [Act.andThen]
      rw [FdtNode.tokens, walk_props here _ fun p member => member]
      simp only
      rw [kidsIh below (by simp)]
      simp only [walkAct, List.dropLast_concat]
      rw [if_neg some_]
      simp only
      rw [restIh behind some_, paths, List.flatMap_cons, List.flatMap_append]
      simp only [taken, FdtNode.entry, List.append_assoc]

theorem walk_tree {root : FdtNode} {kids : Forest FdtNode}
    (sound : ∀ a ∈ (Forest.node root kids .nil).preorder, a.Sound blob offStr) :
    foldAct (walkAct blob offStr want) ⟨[], []⟩ (tokensOf (.node root kids .nil)) =
      .leave ⟨(paths [] (.node root kids .nil)).flatMap (taken want), []⟩ := by
  have here := sound root List.mem_cons_self
  have below := fun b member =>
    sound b (List.mem_cons_of_mem root (List.mem_append_left _ member))
  rw [foldAct_node, walkAct]
  simp only [Act.andThen]
  rw [FdtNode.tokens, walk_props here _ fun p member => member]
  simp only
  rw [walk_forest below (by simp)]
  simp only [walkAct, List.nil_append, List.dropLast_singleton, if_true]
  simp [paths, taken, FdtNode.entry]

end Walk

/-! ## `fdt_root_props` -/

theorem root_deep {f : Forest FdtNode} : ∀ {vals : PyDict Bytes Bytes} {depth : Int}, 1 ≤ depth →
    foldAct (rootAct blob offStr) ⟨vals, depth⟩ (tokensOf f) = .go ⟨vals, depth⟩ := by
  induction f with
  | nil => exact fun _ => rfl
  | node a kids rest kidsIh restIh =>
      intro vals depth deep
      have skip : ∀ props : List FdtProp,
          foldAct (rootAct blob offStr) ⟨vals, depth + 1⟩
            (props.map fun p => .prop p.nameOff p.data) = .go ⟨vals, depth + 1⟩ := by
        intro props
        induction props with
        | nil => rfl
        | cons p props ih =>
            rw [List.map_cons, foldAct_cons, rootAct, if_neg (by simp only; omega)]
            exact ih
      rw [foldAct_node, rootAct]
      simp only [Act.andThen]
      rw [FdtNode.tokens, skip]
      simp only
      rw [kidsIh (by omega)]
      simp only [rootAct]
      rw [if_neg (by omega)]
      simp only [Int.add_sub_cancel]
      exact restIh deep

/-- The root's entry as far as the root property names go. -/
def rootEntry (a : FdtNode) : PyDict Bytes Bytes := a.entry.filter fun e => e.1 ∈ rootPropNames

theorem root_props (sound : a.Sound blob offStr) (vals : PyDict Bytes Bytes)
    {props : List FdtProp} (subset : ∀ p ∈ props, p ∈ a.props) :
    foldAct (rootAct blob offStr) ⟨vals, 1⟩ (props.map fun p => .prop p.nameOff p.data) =
      .go ⟨((props.map fun p => (p.name, p.data)).filter fun e => e.1 ∈ rootPropNames).foldl
        (fun d e => d.set e.1 e.2) vals, 1⟩ := by
  induction props generalizing vals with
  | nil => rfl
  | cons p props ih =>
      have later := fun vals => ih vals fun q member => subset q (List.mem_cons_of_mem p member)
      rw [List.map_cons, foldAct_cons, rootAct, if_pos rfl,
        cstr_prop sound (subset p List.mem_cons_self)]
      simp only [List.map_cons]
      by_cases named : p.name ∈ rootPropNames
      · rw [if_pos named, List.filter_cons_of_pos (by simpa using named), List.foldl_cons]
        exact later _
      · rw [if_neg named, List.filter_cons_of_neg (by simpa using named)]
        exact later _

theorem root_tree {root : FdtNode} {kids : Forest FdtNode} (sound : root.Sound blob offStr) :
    foldAct (rootAct blob offStr) ⟨[], 0⟩ (tokensOf (.node root kids .nil)) =
      .leave ⟨rootEntry root, 0⟩ := by
  have distinct : ((rootEntry root).map Prod.fst).Nodup := by
    have all : (root.entry.map Prod.fst).Nodup := by
      rw [FdtNode.entry, List.map_map]
      exact sound.distinct
    exact all.sublist (List.filter_sublist.map _)
  have filled := @PyDict.foldl_set _ _ _ [] (rootEntry root) distinct (fun _ _ => List.not_mem_nil)
  rw [foldAct_node, rootAct]
  simp only [Act.andThen, Int.zero_add]
  rw [FdtNode.tokens, root_props sound [] fun p member => member]
  simp only
  rw [root_deep (Int.le_refl 1)]
  simp only [rootAct]
  rw [if_pos (by omega)]
  exact congrArg (fun vals => Act.leave (RootState.mk vals 0)) filled

/-! ## `fdt_nodes` -/

def nodeEntries (above : List Bytes) (f : Forest FdtNode) : PyDict Bytes (PyDict Bytes Bytes) :=
  (paths above f).map fun e => (joinPath e.1, e.2.entry)

theorem nodes_props (sound : a.Sound blob offStr) {path : List Bytes}
    {out : PyDict Bytes (PyDict Bytes Bytes)} (new : joinPath path ∉ out.keys)
    (entry : PyDict Bytes Bytes) {props : List FdtProp} (subset : ∀ p ∈ props, p ∈ a.props) :
    foldAct (nodesAct blob offStr) ⟨path, out ++ [(joinPath path, entry)]⟩
        (props.map fun p => .prop p.nameOff p.data) =
      .go ⟨path, out ++ [(joinPath path, (props.map fun p => (p.name, p.data)).foldl
        (fun d e => d.set e.1 e.2) entry)]⟩ := by
  induction props generalizing entry with
  | nil => rfl
  | cons p props ih =>
      have there : joinPath path ∈ PyDict.keys (out ++ [(joinPath path, entry)]) := by
        rw [PyDict.keys_append]
        exact List.mem_append_right _ (List.mem_singleton_self _)
      rw [List.map_cons, foldAct_cons, nodesAct, cstr_prop sound (subset p List.mem_cons_self)]
      simp only
      rw [if_pos there, PyDict.modify_last new]
      exact ih _ fun q member => subset q (List.mem_cons_of_mem p member)

theorem nodes_forest {f : Forest FdtNode} (sound : ∀ a ∈ f.preorder, a.Sound blob offStr) :
    ∀ {path : List Bytes} {out : PyDict Bytes (PyDict Bytes Bytes)},
      (nodeEntries path f).keys.Nodup → (∀ k ∈ (nodeEntries path f).keys, k ∉ out.keys) →
      foldAct (nodesAct blob offStr) ⟨path, out⟩ (tokensOf f) =
        .go ⟨path, out ++ nodeEntries path f⟩ := by
  induction f with
  | nil => simp [tokensOf, paths, foldAct, nodeEntries]
  | node a kids rest kidsIh restIh =>
      intro path out distinct new
      have here := sound a List.mem_cons_self
      have below := fun b member => sound b (List.mem_cons_of_mem a (List.mem_append_left _ member))
      have behind := fun b member =>
        sound b (List.mem_cons_of_mem a (List.mem_append_right _ member))
      have split : nodeEntries path (.node a kids rest) =
          (joinPath (path ++ [a.name]), a.entry) ::
            (nodeEntries (path ++ [a.name]) kids ++ nodeEntries path rest) := by
        simp [nodeEntries, paths]
      have keys : (nodeEntries path (.node a kids rest)).keys =
          joinPath (path ++ [a.name]) :: ((nodeEntries (path ++ [a.name]) kids).keys ++
            (nodeEntries path rest).keys) := by
        rw [split, PyDict.keys, List.map_cons, List.map_append]
        rfl
      rw [keys] at distinct new
      obtain ⟨first, distinct⟩ := List.nodup_cons.mp distinct
      obtain ⟨inner, outer, apart⟩ := List.nodup_append.mp distinct
      have fresh := new _ List.mem_cons_self
      have filled := @PyDict.foldl_set _ _ _ [] a.entry
        (by rw [FdtNode.entry, List.map_map]; exact here.distinct) (fun _ _ => List.not_mem_nil)
      rw [FdtNode.entry, List.nil_append] at filled
      have here_keys : ∀ d : PyDict Bytes Bytes,
          PyDict.keys (out ++ [(joinPath (path ++ [a.name]), d)]) =
            out.keys ++ [joinPath (path ++ [a.name])] := fun d => PyDict.keys_append _ _
      rw [foldAct_node, nodesAct]
      simp only [Act.andThen]
      rw [PyDict.setdefault_new fresh, FdtNode.tokens,
        nodes_props here fresh [] fun p member => member, filled]
      simp only
      rw [kidsIh below inner]
      · simp only [nodesAct, List.dropLast_concat]
        rw [restIh behind outer, split]
        · simp [FdtNode.entry]
        · intro k member
          rw [PyDict.keys_append, here_keys]
          simp only [List.mem_append, List.mem_singleton, not_or]
          refine ⟨⟨new k (List.mem_cons_of_mem _ (List.mem_append_right _ member)), ?_⟩, ?_⟩
          · rintro rfl
            exact first (List.mem_append_right _ member)
          · exact fun there => apart k there k member rfl
      · intro k member
        rw [here_keys]
        simp only [List.mem_append, List.mem_singleton, not_or]
        refine ⟨new k (List.mem_cons_of_mem _ (List.mem_append_left _ member)), ?_⟩
        rintro rfl
        exact first (List.mem_append_left _ member)

end Readers

/-! ## Paths are distinct -/

theorem paths_through {f : Forest FdtNode} : ∀ {above : List Bytes} {e : List Bytes × FdtNode},
    e ∈ paths above f → ∃ n ∈ f.roots.map FdtNode.name, above ++ [n] <+: e.1 := by
  induction f with
  | nil => exact fun member => absurd member List.not_mem_nil
  | node a kids rest kidsIh restIh =>
      intro above e member
      rw [paths, List.mem_cons, List.mem_append] at member
      rcases member with rfl | inside | behind
      · exact ⟨a.name, List.mem_cons_self, List.prefix_refl _⟩
      · obtain ⟨n, _, leads⟩ := kidsIh inside
        exact ⟨a.name, List.mem_cons_self, (List.prefix_append _ [n]).trans leads⟩
      · obtain ⟨n, root, leads⟩ := restIh behind
        exact ⟨n, List.mem_cons_of_mem _ root, leads⟩

theorem paths_nodup {f : Forest FdtNode} (apart : SiblingsApart f) : ∀ (above : List Bytes),
    ((paths above f).map Prod.fst).Nodup := by
  induction f with
  | nil => exact fun _ => List.nodup_nil
  | node a kids rest kidsIh restIh =>
      intro above
      obtain ⟨alone, inside, behind⟩ := apart
      rw [paths, List.map_cons, List.map_append, List.nodup_cons, List.nodup_append]
      have notBehind : ∀ path ∈ (paths above rest).map Prod.fst, ¬ above ++ [a.name] <+: path := by
        intro path member leads
        obtain ⟨e, there, rfl⟩ := List.mem_map.mp member
        obtain ⟨n, root, leads'⟩ := paths_through there
        have same : above ++ [a.name] = above ++ [n] :=
          List.prefix_of_prefix_length_le leads leads' (by simp) |>.eq_of_length (by simp)
        have name : a.name = n := by simpa using same
        exact alone (name ▸ root)
      refine ⟨fun member => ?_, kidsIh inside _, restIh behind above, fun path within_ other member => ?_⟩
      · rcases List.mem_append.mp member with deep | later
        · obtain ⟨e, there, same⟩ := List.mem_map.mp deep
          obtain ⟨n, _, leads⟩ := paths_through there
          have longer := leads.length_le
          rw [same] at longer
          simp at longer
        · exact notBehind _ later (List.prefix_refl _)
      · rintro rfl
        obtain ⟨e, there, rfl⟩ := List.mem_map.mp within_
        obtain ⟨n, _, leads⟩ := paths_through there
        exact notBehind _ member ((List.prefix_append _ [n]).trans leads)

theorem paths_member {f : Forest FdtNode} : ∀ {above : List Bytes} {e : List Bytes × FdtNode},
    e ∈ paths above f → e.2 ∈ f.preorder ∧ e.1.getLast? = some e.2.name ∧
      ∀ n ∈ e.1, n ∈ above ∨ ∃ b ∈ f.preorder, n = b.name := by
  induction f with
  | nil => exact fun member => absurd member List.not_mem_nil
  | node a kids rest kidsIh restIh =>
      intro above e member
      rw [paths, List.mem_cons, List.mem_append] at member
      rw [Forest.preorder]
      rcases member with rfl | inside | behind
      · refine ⟨List.mem_cons_self, by simp, fun n there => ?_⟩
        rcases List.mem_append.mp there with old | new
        · exact .inl old
        · exact .inr ⟨a, List.mem_cons_self, List.mem_singleton.mp new⟩
      · obtain ⟨there, last, names⟩ := kidsIh inside
        refine ⟨List.mem_cons_of_mem a (List.mem_append_left _ there), last, fun n member => ?_⟩
        rcases names n member with old | ⟨b, deep, rfl⟩
        · rcases List.mem_append.mp old with old | new
          · exact .inl old
          · exact .inr ⟨a, List.mem_cons_self, List.mem_singleton.mp new⟩
        · exact .inr ⟨b, List.mem_cons_of_mem a (List.mem_append_left _ deep), rfl⟩
      · obtain ⟨there, last, names⟩ := restIh behind
        refine ⟨List.mem_cons_of_mem a (List.mem_append_right _ there), last, fun n member => ?_⟩
        exact (names n member).imp_right fun ⟨b, later, same⟩ =>
          ⟨b, List.mem_cons_of_mem a (List.mem_append_right _ later), same⟩

def lastName (path : Bytes) : Bytes := ((path.splitOn slash).getLast?).getD []

section Tree
variable {tree : Forest FdtNode} (clean : ∀ a ∈ tree.preorder, slash ∉ a.name)
include clean

theorem splitOn_path {e : List Bytes × FdtNode} (member : e ∈ paths [] tree) :
    (joinPath e.1).splitOn slash = e.1 := by
  obtain ⟨_, last, names⟩ := paths_member member
  refine List.splitOn_intercalate slash (fun n there => ?_) fun empty => ?_
  · obtain ⟨b, inside, rfl⟩ := (names n there).resolve_left List.not_mem_nil
    exact clean b inside
  · exact absurd (empty ▸ last) nofun

theorem lastName_path {e : List Bytes × FdtNode} (member : e ∈ paths [] tree) :
    lastName (joinPath e.1) = e.2.name := by
  rw [lastName, splitOn_path clean member, (paths_member member).2.1, Option.getD_some]

theorem keys_nodup (apart : SiblingsApart tree) : (nodeEntries [] tree).keys.Nodup := by
  rw [PyDict.keys, nodeEntries, List.map_map]
  have joined := List.Nodup.map_on (f := joinPath) (fun x inX y inY same => ?_) (paths_nodup apart [])
  · rw [List.map_map] at joined
    exact joined
  · obtain ⟨e, member, rfl⟩ := List.mem_map.mp inX
    obtain ⟨e', member', rfl⟩ := List.mem_map.mp inY
    rw [← splitOn_path clean member, same, splitOn_path clean member']

end Tree

/-! ## The readers against one another -/

/-- The properties of the nodes whose path ends in a name. -/
def endingIn (nodes : PyDict Bytes (PyDict Bytes Bytes)) (want : Bytes) : List (Bytes × Bytes) :=
  (nodes.filter fun e => lastName e.1 = want).flatMap Prod.snd

theorem isInfix_iff {part text : Bytes} : isInfix part text = true ↔ part <:+: text := by
  simp only [isInfix, List.any_eq_true, List.mem_tails, List.isPrefixOf_iff_prefix]
  rw [List.infix_iff_prefix_suffix]
  exact exists_congr fun _ => and_comm

theorem suffix_joinPath (above : List Bytes) (n : Bytes) : n <:+ joinPath (above ++ [n]) := by
  induction above with
  | nil => simp [joinPath]
  | cons a above ih =>
      obtain ⟨first, others, same⟩ : ∃ first others, above ++ [n] = first :: others :=
        List.exists_cons_of_ne_nil (by simp)
      have step : joinPath (a :: (above ++ [n])) = a ++ [slash] ++ joinPath (above ++ [n]) := by
        rw [same, joinPath, joinPath, List.intercalate_cons_cons]
      rw [List.cons_append, step]
      exact ih.trans (List.suffix_append _ _)

theorem name_infix {e : List Bytes × FdtNode} (last : e.1.getLast? = some e.2.name) :
    e.2.name <:+: slash :: joinPath e.1 := by
  have same : e.1.dropLast ++ [e.2.name] = e.1 := List.dropLast_append_getLast? _ last
  rw [← same]
  exact (suffix_joinPath _ _).isInfix.trans (List.suffix_cons _ _).isInfix

/-- Of two selections from a list, one within the other, element by element. -/
theorem flatMap_eq_iff {α β : Type} {f g : α → List β} : ∀ {xs : List α},
    (∀ x ∈ xs, g x = f x ∨ g x = []) →
      (xs.flatMap f = xs.flatMap g ↔ ∀ x ∈ xs, f x = g x) := by
  intro xs nested
  have shorter : ∀ ys ⊆ xs, (ys.flatMap g).length ≤ (ys.flatMap f).length := by
    intro ys within_
    induction ys with
    | nil => exact Nat.le_refl 0
    | cons y ys ih =>
        have later := ih fun z member => within_ (List.mem_cons_of_mem y member)
        rw [List.flatMap_cons, List.flatMap_cons, List.length_append, List.length_append]
        rcases nested y (within_ List.mem_cons_self) with same | none_
        · rw [same]
          omega
        · rw [none_, List.length_nil]
          omega
  refine ⟨fun equal => ?_, fun each => List.flatMap_congr each⟩
  induction xs with
  | nil => exact nofun
  | cons x xs ih =>
      have rest := fun y member => nested y (List.mem_cons_of_mem x member)
      have fewer := shorter xs (List.subset_cons_self x xs)
      have within_ : ∀ ys ⊆ xs, (ys.flatMap g).length ≤ (ys.flatMap f).length :=
        fun ys inside => shorter ys fun y member => List.mem_cons_of_mem x (inside member)
      rw [List.flatMap_cons, List.flatMap_cons] at equal
      have here : f x = g x := by
        rcases nested x List.mem_cons_self with same | none_
        · exact same.symm
        · rw [none_, List.nil_append] at equal
          have long := congrArg List.length equal
          rw [List.length_append] at long
          rw [none_, List.length_eq_zero_iff.mp (by omega : (f x).length = 0)]
      rw [here] at equal
      exact List.forall_mem_cons.mpr ⟨here, ih rest within_ (List.append_cancel_left equal)⟩

theorem endingIn_entries {tree : Forest FdtNode} (clean : ∀ a ∈ tree.preorder, slash ∉ a.name)
    (want : Bytes) : endingIn (nodeEntries [] tree) want =
      (paths [] tree).flatMap fun e => if e.2.name = want then e.2.entry else [] := by
  have last := fun e (member : e ∈ paths [] tree) => lastName_path clean member
  rw [endingIn, nodeEntries]
  generalize paths [] tree = entries at last
  induction entries with
  | nil => rfl
  | cons e entries ih =>
      have later := ih fun e' member => last e' (List.mem_cons_of_mem e member)
      have here := last e List.mem_cons_self
      rw [List.map_cons, List.flatMap_cons, ← later]
      by_cases named : e.2.name = want
      · rw [List.filter_cons_of_pos (by simpa [here] using named), List.flatMap_cons, if_pos named]
      · rw [List.filter_cons_of_neg (by simpa [here] using named), if_neg named, List.nil_append]

theorem taken_iff {e : List Bytes × FdtNode} (last : e.1.getLast? = some e.2.name) {want : Bytes} :
    taken want e = (if e.2.name = want then e.2.entry else []) ↔
      (e.2.props ≠ [] → want <:+: slash :: joinPath e.1 → e.2.name = want) := by
  have empty : e.2.entry = [] ↔ e.2.props = [] := by
    rw [FdtNode.entry, List.map_eq_nil_iff]
  rw [taken]
  by_cases named : e.2.name = want
  · have found : isInfix want (slash :: joinPath e.1) = true :=
      isInfix_iff.mpr (named ▸ name_infix last)
    rw [if_pos named, if_pos found]
    exact ⟨fun _ _ _ => named, fun _ => rfl⟩
  · rw [if_neg named]
    by_cases found : isInfix want (slash :: joinPath e.1) = true
    · rw [if_pos found, empty]
      exact ⟨fun none_ some_ => absurd none_ some_, fun free => by
        by_contra some_
        exact named (free some_ (isInfix_iff.mp found))⟩
    · rw [if_neg found]
      exact ⟨fun _ _ there => absurd (isInfix_iff.mpr there) found, fun _ => rfl⟩

section Agree
variable {blob : Bytes} {root : FdtNode} {kids : Forest FdtNode}

theorem WellFormed.clean (formed : WellFormed blob root kids) :
    ∀ a ∈ (Forest.node root kids .nil).preorder, slash ∉ a.name := by
  obtain ⟨_, _, _, _, _, _, _, sound⟩ := formed.header
  exact fun a member => (sound a member).name.2

theorem sound_tokens {offStr : Nat} {f : Forest FdtNode}
    (sound : ∀ a ∈ f.preorder, a.Sound blob offStr) : ∀ t ∈ tokensOf f, t.Sound := by
  induction f with
  | nil => exact nofun
  | node a kids rest kidsIh restIh =>
      have here := sound a List.mem_cons_self
      have below := kidsIh fun b member =>
        sound b (List.mem_cons_of_mem a (List.mem_append_left _ member))
      have behind := restIh fun b member =>
        sound b (List.mem_cons_of_mem a (List.mem_append_right _ member))
      rw [tokensOf]
      intro t member
      simp only [List.cons_append, List.mem_cons, List.mem_append, List.mem_map] at member
      rcases member with rfl | (⟨p, there, rfl⟩ | inside) | rfl | later
      · exact here.name.1
      · exact here.lengths p there
      · exact below t inside
      · exact trivial
      · exact behind t later

/-- The loop of each reader is its fold over the tokens of the tree. -/
theorem WellFormed.loop (formed : WellFormed blob root kids) :
    ∃ h, fdtHeader blob = some h ∧ h.magic = fdtMagic ∧
      (∀ a ∈ (Forest.node root kids .nil).preorder, a.Sound blob h.offStr) ∧
      ∀ {S : Type} {act : S → FdtToken → Act S}, (∀ s, act s .other = .leave s) →
        (∀ s, act s .nop = .go s) → ∀ s, tokenLoop act blob (blob.length + 1) h.offStruct s =
          some (foldAct act s (tokensOf (.node root kids .nil))).outcome := by
  obtain ⟨h, tokens, more, header, magic, at_, tree, sound⟩ := formed.header
  refine ⟨h, header, magic, sound, fun others nops s => ?_⟩
  have each : ∀ t ∈ tokens, t.Sound := by
    intro t member
    by_cases nop : t = .nop
    · rw [nop]
      exact trivial
    · exact sound_tokens sound t (tree ▸ List.mem_filter.mpr ⟨member, by simpa using nop⟩)
  rw [tokenLoop_blob each others nops s at_, tree]

theorem fdtNodes_formed (formed : WellFormed blob root kids) :
    fdtNodes blob = some (.returned (nodeEntries [] (.node root kids .nil))) := by
  obtain ⟨h, header, magic, sound, loop⟩ := formed.loop
  have distinct := keys_nodup formed.clean formed.siblings
  rw [fdtNodes, header]
  simp only [magic, ne_eq, not_true_eq_false, if_false]
  rw [loop (fun _ => rfl) (fun _ => rfl), nodes_forest sound distinct fun _ _ => List.not_mem_nil]
  rfl

theorem fdtRootProps_formed (formed : WellFormed blob root kids) :
    fdtRootProps blob = some (.returned (rootEntry root)) := by
  obtain ⟨h, header, _, sound, loop⟩ := formed.loop
  rw [fdtRootProps, header]
  simp only
  rw [loop (fun _ => rfl) (fun _ => rfl), root_tree (sound root List.mem_cons_self)]
  rfl

theorem fdtWalk_formed (formed : WellFormed blob root kids) (want : Bytes) :
    fdtWalk blob want =
      some (.returned ((paths [] (.node root kids .nil)).flatMap (taken want))) := by
  obtain ⟨h, header, magic, sound, loop⟩ := formed.loop
  rw [fdtWalk, header]
  simp only [magic, ne_eq, not_true_eq_false, if_false]
  rw [loop (fun _ => rfl) (fun _ => rfl), walk_tree sound]
  rfl

/-- On a well-formed blob the readers end; the root's properties are those of `fdt_nodes`, and
the walk takes those of the nodes whose path ends in the name exactly where the name lies in the
path of no other node that has properties. -/
theorem readers_agree (formed : WellFormed blob root kids) :
    ∃ nodes, fdtNodes blob = some (.returned nodes) ∧
      (∃ entry, nodes.lookup root.name = some entry ∧
        fdtRootProps blob = some (.returned (entry.filter fun e => e.1 ∈ rootPropNames))) ∧
      ∀ want, ∃ out, fdtWalk blob want = some (.returned out) ∧
        (out = endingIn nodes want ↔
          ∀ e ∈ paths [] (.node root kids .nil), e.2.props ≠ [] →
            want <:+: slash :: joinPath e.1 → e.2.name = want) := by
  refine ⟨_, fdtNodes_formed formed, ⟨root.entry, ?_, fdtRootProps_formed formed⟩,
    fun want => ⟨_, fdtWalk_formed formed want, ?_⟩⟩
  · simp [nodeEntries, paths, joinPath]
  · rw [endingIn_entries formed.clean, flatMap_eq_iff]
    · exact forall₂_congr fun e member => taken_iff (paths_member member).2.1
    · intro e member
      by_cases named : e.2.name = want
      · left
        rw [if_pos named, taken, if_pos (isInfix_iff.mpr ?_)]
        exact named ▸ name_infix (paths_member member).2.1
      · exact .inr (if_neg named)

end Agree

/-! ## A node below the one that is asked for -/

/-- The tree of `/a/b` with one property, `p`, in `b`. -/
def nestedTokens : List FdtToken :=
  [.beginNode [], .beginNode [0x61], .beginNode [0x62], .prop 0 [], .endNode, .endNode, .endNode]

def nestedBlob : Bytes :=
  be32 fdtMagic ++ be32 0x5e ++ be32 0x28 ++ be32 0x5c ++ List.replicate 24 0 ++
    nestedTokens.flatMap FdtToken.encode ++ FdtToken.encode .other ++ [0x70, 0]

def nestedRoot : FdtNode := ⟨[], []⟩

def nestedKids : Forest FdtNode :=
  .node ⟨[0x61], []⟩ (.node ⟨[0x62], [⟨0, [0x70], []⟩]⟩ .nil .nil) .nil

theorem nested_formed : WellFormed nestedBlob nestedRoot nestedKids where
  header := by
    refine ⟨⟨fdtMagic, 0x28, 0x5c⟩, nestedTokens, [0x70, 0], rfl, rfl, rfl, rfl,
      fun a member => ?_⟩
    have nodes : (Forest.node nestedRoot nestedKids .nil).preorder =
        [⟨[], []⟩, ⟨[0x61], []⟩, ⟨[0x62], [⟨0, [0x70], []⟩]⟩] := rfl
    rw [nodes] at member
    simp only [List.mem_cons, List.not_mem_nil, or_false] at member
    rcases member with rfl | rfl | rfl
    · exact ⟨by decide, by decide, nofun, nofun⟩
    · exact ⟨by decide, by decide, nofun, nofun⟩
    · refine ⟨by decide, by decide, fun p member => ?_, fun p member => ?_⟩
      · obtain rfl := List.mem_singleton.mp member
        decide
      · obtain rfl := List.mem_singleton.mp member
        decide
  siblings := by simp [SiblingsApart, nestedKids, Forest.roots]

/-- Asked for `b`, the walk gives the property of `b`. -/
theorem readers_agree_nested :
    ∃ nodes, fdtNodes nestedBlob = some (.returned nodes) ∧
      ∃ out, fdtWalk nestedBlob [0x62] = some (.returned out) ∧ out = endingIn nodes [0x62] := by
  obtain ⟨nodes, run, _, walks⟩ := readers_agree nested_formed
  obtain ⟨out, walked, same⟩ := walks [0x62]
  refine ⟨nodes, run, out, walked, same.mpr fun e member some_ _ => ?_⟩
  have only : ∀ e ∈ paths [] (.node nestedRoot nestedKids .nil), e.2.props ≠ [] → e.2.name = [0x62] := by
    simp [paths, nestedRoot, nestedKids]
  exact only e member some_

/-- Asked for `a`, which has no properties, it gives that of `b` as well. -/
theorem nested_walk :
    ¬ ∀ (blob : Bytes) (root : FdtNode) (kids : Forest FdtNode), WellFormed blob root kids →
      ∀ want nodes out, fdtNodes blob = some (.returned nodes) →
        fdtWalk blob want = some (.returned out) → out = endingIn nodes want := by
  intro every
  have same := every nestedBlob nestedRoot nestedKids nested_formed [0x61] _ _
    (fdtNodes_formed nested_formed) (fdtWalk_formed nested_formed [0x61])
  exact absurd same (by decide)

end Stage90.Fdt
