import Mathlib.Data.List.TakeWhile
import UhdHost.Library.KeyTree
import UhdHost.Library.Transition
import UhdHost.Types.Exception

/-!
# The property tree

`property_tree_impl` of `property_tree.cpp`, with the templates of `property_tree.ipp` over it.
A tree and its subtrees are handles on the same nodes; a handle has a root path, and a call on
it is about the root path and the path it is passed.

## What a path denotes

`path_tokenizer` drops empty components, so however many slashes a path has, it denotes the node
at the end of its components that are not empty (`pathTokens_join`).  `TreeBehaves` is a finite
map from lists of components, and what each call does to it.

## Where the tree differs

`remove` and `_pop` walk to the node with the tokenizer and then erase it from its parent under
`leaf`, which is what follows the last slash.  For a path that ends in a slash, or the empty path
of a subtree, that is the empty string, under which no parent has a child.  And `pop` checks the
type after the node is gone.  `behaves_iff` says that these are the only differences.
-/

namespace UhdHost

/-- `fs_path` -/
abbrev FsPath := List Char

/-! ## Paths -/

namespace FsPath

/-- The components from here on, with what is read of one of them. -/
def tokensFrom (token : List Char) : FsPath → List FsPath
  | [] => if token = [] then [] else [token]
  | c :: cs =>
    if c = '/' then (if token = [] then tokensFrom [] cs else token :: tokensFrom [] cs)
    else tokensFrom (token ++ [c]) cs

/-- `path_tokenizer` -/
def pathTokens (path : FsPath) : List FsPath := tokensFrom [] path

/-- `leaf`: what follows the last slash -/
def leaf (path : FsPath) : FsPath := (path.reverse.takeWhile (· ≠ '/')).reverse

/-- `operator/` -/
def join (lhs rhs : FsPath) : FsPath :=
  (lhs.reverse.dropWhile (· = '/')).reverse ++ '/' :: rhs.dropWhile (· = '/')

variable {path lhs rhs : FsPath} {token : List Char}

theorem tokensFrom_append_slash (token : List Char) (lhs rhs : FsPath) :
    tokensFrom token (lhs ++ '/' :: rhs) = tokensFrom token lhs ++ pathTokens rhs := by
  induction lhs generalizing token with
  | nil =>
    simp only [List.nil_append, tokensFrom, if_true]
    split_ifs
    · rfl
    · rfl
  | cons c lhs ih =>
    rw [List.cons_append, tokensFrom, tokensFrom]
    split_ifs
    · exact ih []
    · rw [ih [], List.cons_append]
    · exact ih (token ++ [c])

theorem pathTokens_append_slash (lhs rhs : FsPath) :
    pathTokens (lhs ++ '/' :: rhs) = pathTokens lhs ++ pathTokens rhs :=
  tokensFrom_append_slash [] lhs rhs

theorem pathTokens_nil : pathTokens [] = [] := rfl

theorem pathTokens_slashes_append {slashes : List Char} (h : ∀ c ∈ slashes, c = '/')
    (path : FsPath) : pathTokens (slashes ++ path) = pathTokens path := by
  induction slashes with
  | nil => rfl
  | cons c slashes ih =>
    have hc := h c List.mem_cons_self
    subst hc
    rw [List.cons_append, ← ih fun c hc => h c (List.mem_cons_of_mem _ hc)]
    exact pathTokens_append_slash [] (slashes ++ path)

theorem pathTokens_append_slashes {slashes : List Char} (h : ∀ c ∈ slashes, c = '/')
    (path : FsPath) : pathTokens (path ++ slashes) = pathTokens path := by
  cases slashes with
  | nil => rw [List.append_nil]
  | cons c slashes =>
    have hc := h c List.mem_cons_self
    subst hc
    have hrest := pathTokens_slashes_append (fun c hc => h c (List.mem_cons_of_mem _ hc)) []
    rw [List.append_nil] at hrest
    rw [pathTokens_append_slash, hrest, pathTokens_nil, List.append_nil]

theorem slashes_of_takeWhile {l : List Char} : ∀ c ∈ l.takeWhile (· = '/'), c = '/' := by
  intro c hc
  have hslash := List.mem_takeWhile_imp hc
  exact of_decide_eq_true hslash

theorem pathTokens_join (lhs rhs : FsPath) :
    pathTokens (lhs.join rhs) = pathTokens lhs ++ pathTokens rhs := by
  have hlhs : pathTokens (lhs.reverse.dropWhile (· = '/')).reverse = pathTokens lhs := by
    have hsplit : lhs = (lhs.reverse.dropWhile (· = '/')).reverse ++
        (lhs.reverse.takeWhile (· = '/')).reverse := by
      rw [← List.reverse_append, List.takeWhile_append_dropWhile, List.reverse_reverse]
    have hslashes : ∀ c ∈ (lhs.reverse.takeWhile (· = '/')).reverse, c = '/' :=
      fun c hc => slashes_of_takeWhile c (List.mem_reverse.mp hc)
    conv_rhs => rw [hsplit]
    exact (pathTokens_append_slashes hslashes _).symm
  have hrhs : pathTokens (rhs.dropWhile (· = '/')) = pathTokens rhs := by
    conv_rhs => rw [← List.takeWhile_append_dropWhile (p := (· = '/')) (l := rhs)]
    exact (pathTokens_slashes_append slashes_of_takeWhile _).symm
  rw [join, pathTokens_append_slash, hlhs, hrhs]

theorem tokensFrom_of_no_slash (h : ∀ c ∈ path, c ≠ '/') (token : List Char) :
    tokensFrom token path = if token ++ path = [] then [] else [token ++ path] := by
  induction path generalizing token with
  | nil => rw [tokensFrom, List.append_nil]
  | cons c path ih =>
    rw [tokensFrom, if_neg (h c List.mem_cons_self),
      ih (fun d hd => h d (List.mem_cons_of_mem _ hd)), List.append_assoc, List.singleton_append]

theorem ne_nil_of_mem_tokensFrom {t : FsPath} {token : List Char}
    (h : t ∈ tokensFrom token path) : t ≠ [] := by
  induction path generalizing token with
  | nil =>
    rw [tokensFrom] at h
    split_ifs at h with hnil
    · exact absurd h List.not_mem_nil
    · rw [List.mem_singleton.mp h]
      exact hnil
  | cons c path ih =>
    rw [tokensFrom] at h
    split_ifs at h with hslash hnil
    · exact ih h
    · rcases List.mem_cons.mp h with rfl | h
      · exact hnil
      · exact ih h
    · exact ih h

theorem ne_nil_of_mem_pathTokens {t : FsPath} (h : t ∈ pathTokens path) : t ≠ [] :=
  ne_nil_of_mem_tokensFrom h

/-- The path ends in a component, not in a slash. -/
def Spelled (path : FsPath) : Prop := ∃ c, path.getLast? = some c ∧ c ≠ '/'

theorem leaf_ne_nil_iff : path.leaf ≠ [] ↔ Spelled path := by
  rw [leaf, Spelled, Ne, List.reverse_eq_nil_iff, ← List.head?_reverse]
  cases path.reverse with
  | nil => simp
  | cons c cs => by_cases hc : c = '/' <;> simp [hc]

theorem spelled_join_iff (lhs rhs : FsPath) : Spelled (lhs.join rhs) ↔ Spelled rhs := by
  have hsplit := List.takeWhile_append_dropWhile (p := (· = '/')) (l := rhs)
  rw [Spelled, Spelled, join]
  by_cases hrest : rhs.dropWhile (· = '/') = []
  · have hlast : rhs.getLast? = some '/' ∨ rhs.getLast? = none := by
      rw [hrest, List.append_nil] at hsplit
      cases hget : rhs.getLast? with
      | none => exact Or.inr rfl
      | some c =>
        have hmem : c ∈ rhs.takeWhile (· = '/') := by
          rw [hsplit]
          exact List.mem_of_getLast? hget
        rw [slashes_of_takeWhile c hmem]
        exact Or.inl rfl
    rw [hrest, List.getLast?_append, List.getLast?_singleton]
    rcases hlast with hlast | hlast
    · rw [hlast]
      rfl
    · rw [hlast]
      constructor
      · rintro ⟨c, hc, hne⟩
        rw [Option.some_or, Option.some_inj] at hc
        exact absurd hc.symm hne
      · rintro ⟨c, hc, -⟩
        cases hc
  · have hjoin : ((lhs.reverse.dropWhile (· = '/')).reverse ++
        '/' :: rhs.dropWhile (· = '/')).getLast? = (rhs.dropWhile (· = '/')).getLast? := by
      rw [← List.singleton_append, ← List.append_assoc,
        List.getLast?_append_of_ne_nil _ hrest]
    have hrhs : rhs.getLast? = (rhs.dropWhile (· = '/')).getLast? := by
      conv_lhs => rw [← hsplit]
      exact List.getLast?_append_of_ne_nil _ hrest
    rw [hjoin, hrhs]

theorem exists_pathTokens_eq (h : Spelled path) :
    ∃ parent, pathTokens path = parent ++ [path.leaf] := by
  have hleaf := leaf_ne_nil_iff.mpr h
  have hno : ∀ c ∈ path.leaf, c ≠ '/' := by
    intro c hc
    rw [leaf] at hc
    have hother := List.mem_takeWhile_imp (List.mem_reverse.mp hc)
    exact of_decide_eq_true hother
  have htoken : pathTokens path.leaf = [path.leaf] := by
    rw [pathTokens, tokensFrom_of_no_slash hno, List.nil_append, if_neg hleaf]
  have hsplit : path = (path.reverse.dropWhile (· ≠ '/')).reverse ++ path.leaf := by
    rw [leaf, ← List.reverse_append, List.takeWhile_append_dropWhile, List.reverse_reverse]
  cases hrest : path.reverse.dropWhile (· ≠ '/') with
  | nil =>
    rw [hrest, List.reverse_nil, List.nil_append] at hsplit
    refine ⟨[], ?_⟩
    rw [List.nil_append, ← htoken]
    exact congrArg pathTokens hsplit
  | cons c rest =>
    have hc : c = '/' := by
      have hhead := List.head?_dropWhile_not (· ≠ '/') path.reverse
      rw [hrest] at hhead
      simpa using hhead
    subst hc
    refine ⟨pathTokens rest.reverse, ?_⟩
    rw [hrest, List.reverse_cons, List.append_assoc, List.singleton_append] at hsplit
    conv_lhs => rw [hsplit]
    rw [pathTokens_append_slash, htoken]

end FsPath

/-! ## The tree -/

/-- What a call on a tree throws. -/
inductive TreeError where
  | uhd (e : UhdError)
  /-- `key_not_found` of `uhd::dict` -/
  | keyNotFound (key : FsPath)
  deriving DecidableEq

/-- The calls on a tree.  `τ` are the types of properties. -/
inductive TreeCall (P τ : Type) where
  | subtree (path : FsPath)
  | remove (path : FsPath)
  | existsAt (path : FsPath)
  | list (path : FsPath)
  | create (path : FsPath) (prop : P)
  | access (path : FsPath) (type : τ)
  | pop (path : FsPath) (type : τ)

/-- The path that a call is passed. -/
def TreeCall.path {P τ : Type} : TreeCall P τ → FsPath
  | .subtree path | .remove path | .existsAt path | .list path => path
  | .create path _ | .access path _ | .pop path _ => path

/-- What a call returns or throws. -/
inductive TreeResult (P : Type) where
  | done
  | subtree (handle : ℕ)
  | property (prop : P)
  | found (exist : Bool)
  | names (names : List FsPath)
  | threw (e : TreeError)

/-- The call threw. -/
def TreeResult.Threw {P : Type} (r : TreeResult P) : Prop := ∃ e, r = .threw e

/-- The nodes, and the root paths of the handles on them. -/
structure PropertyTree (P : Type) where
  guts : KeyTree FsPath P := .empty
  roots : List FsPath := [[]]

namespace PropertyTree

open FsPath Transition

variable {P τ : Type} [DecidableEq τ]

/-- `throw_path_not_found` -/
def pathNotFound (path : FsPath) : TreeError :=
  .uhd (.lookupError ("Path not found in tree: " ++ String.ofList path))

def uninitialized (path : FsPath) : TreeError :=
  .uhd (.runtimeError ("Cannot access! Property uninitialized at: " ++ String.ofList path))

def wrongType (path : FsPath) : TreeError :=
  .uhd (.typeError
    ("Property " ++ String.ofList path ++ " exists, but was accessed with wrong type"))

/-- `parent->pop(fs_path(path.leaf()))`, for the parent of the node that the path denotes -/
def popLeaf (guts : KeyTree FsPath P) (path : FsPath) : Except TreeError (KeyTree FsPath P) :=
  match (guts.find (pathTokens path).dropLast).bind (KeyTree.child path.leaf) with
  | none => .error (.keyNotFound path.leaf)
  | some _ => .ok (guts.graft (pathTokens path).dropLast (KeyTree.erase path.leaf))

/-- `remove`, on the full path -/
def remove (guts : KeyTree FsPath P) (path : FsPath) : Except TreeError (KeyTree FsPath P) :=
  match guts.find (pathTokens path) with
  | none => .error (pathNotFound path)
  | some _ =>
    if pathTokens path = [] then .error (.uhd (.runtimeError "Cannot uproot"))
    else popLeaf guts path

/-- `_pop`, on the full path -/
def popAt (guts : KeyTree FsPath P) (path : FsPath) : Except TreeError (P × KeyTree FsPath P) :=
  match guts.find (pathTokens path) with
  | none => .error (pathNotFound path)
  | some node =>
    match node.value with
    | none => .error (uninitialized path)
    | some prop =>
      if pathTokens path = [] then .error (.uhd (.runtimeError "Cannot pop"))
      else (popLeaf guts path).map fun guts => (prop, guts)

/-- `_create`, on the full path: what it throws, if anything, and the nodes -/
def createAt (guts : KeyTree FsPath P) (path : FsPath) (prop : P) :
    Option TreeError × KeyTree FsPath P :=
  -- the walk adds the nodes that are missing
  let walked := guts.graft (pathTokens path) id
  match (walked.find (pathTokens path)).bind KeyTree.value with
  | some _ => (some (.uhd (.runtimeError
      ("Cannot create! Property already exists at: " ++ String.ofList path))), walked)
  | none => (none, walked.graft (pathTokens path) (KeyTree.setValue (some prop)))

/-- `_access`, on the full path -/
def accessAt (guts : KeyTree FsPath P) (path : FsPath) : Except TreeError P :=
  match guts.find (pathTokens path) with
  | none => .error (pathNotFound path)
  | some node =>
    match node.value with
    | none => .error (uninitialized path)
    | some prop => .ok prop

/-- `access`: the property, if it has the type -/
def access (ty : P → τ) (guts : KeyTree FsPath P) (root path : FsPath) (type : τ) :
    TreeResult P :=
  match accessAt guts (root.join path) with
  | .error e => .threw e
  | .ok prop => if ty prop = type then .property prop else .threw (wrongType path)

/-- A call on a handle with a root path: the result, and the tree. -/
def callOn (ty : P → τ) (t : PropertyTree P) (root : FsPath) :
    TreeCall P τ → TreeResult P × PropertyTree P
  | .subtree path =>
    (.subtree t.roots.length, { t with roots := t.roots ++ [root.join path] })
  | .remove path =>
    match remove t.guts (root.join path) with
    | .error e => (.threw e, t)
    | .ok guts => (.done, { t with guts := guts })
  | .existsAt path => (.found (t.guts.find (pathTokens (root.join path))).isSome, t)
  | .list path =>
    match t.guts.find (pathTokens (root.join path)) with
    | none => (.threw (pathNotFound (root.join path)), t)
    | some node => (.names node.keys, t)
  | .create path prop =>
    match createAt t.guts (root.join path) prop with
    | (some e, guts) => (.threw e, { t with guts := guts })
    | (none, guts) => (access ty guts root path (ty prop), { t with guts := guts })
  | .access path type => (access ty t.guts root path type, t)
  | .pop path type =>
    match popAt t.guts (root.join path) with
    | .error e => (.threw e, t)
    | .ok (prop, guts) =>
      (if ty prop = type then .property prop else .threw (wrongType path), { t with guts := guts })

/-- A call on one of the handles. -/
def step (ty : P → τ) (t : PropertyTree P) (call : ℕ × TreeCall P τ) : Option (PropertyTree P) :=
  t.roots[call.1]?.map fun root => (callOn ty t root call.2).2

/-! ## The finite tree -/

/-- What is at the end of each list of components. -/
abbrev TreeMap (P : Type) := List FsPath → Option (Option P)

namespace TreeMap

/-- A property is set, and the nodes on the way to it are there. -/
def create (m : TreeMap P) (ks : List FsPath) (prop : P) : TreeMap P := fun js =>
  if js = ks then some (some prop) else if js <+: ks then some ((m js).getD none) else m js

/-- A node is deleted, with what is below it. -/
def delete (m : TreeMap P) (ks : List FsPath) : TreeMap P := fun js =>
  if ks <+: js then none else m js

end TreeMap

/-- **What a call should do** to the node at the end of the components `ks`. -/
def TreeBehaves (ty : P → τ) (m : TreeMap P) (ks : List FsPath) :
    TreeCall P τ → TreeResult P → TreeMap P → Prop
  | .subtree _, _, m' => m' = m
  | .existsAt _, r, m' => m' = m ∧ r = .found (m ks).isSome
  | .list _, r, m' => m' = m ∧
      (m ks = none ∧ r.Threw ∨ m ks ≠ none ∧ ∃ names, r = .names names ∧ names.Nodup ∧
        ∀ k, k ∈ names ↔ m (ks ++ [k]) ≠ none)
  | .create _ prop, r, m' =>
      (∃ other, m ks = some (some other)) ∧ r.Threw ∧ m' = m ∨
        (¬ ∃ other, m ks = some (some other)) ∧ r = .property prop ∧ m' = TreeMap.create m ks prop
  | .access _ type, r, m' => m' = m ∧
      ((∃ prop, m ks = some (some prop) ∧ ty prop = type ∧ r = .property prop) ∨
        (¬ ∃ prop, m ks = some (some prop) ∧ ty prop = type) ∧ r.Threw)
  | .remove _, r, m' =>
      ks ≠ [] ∧ m ks ≠ none ∧ r = .done ∧ m' = TreeMap.delete m ks ∨
        (ks = [] ∨ m ks = none) ∧ r.Threw ∧ m' = m
  | .pop _ type, r, m' =>
      (∃ prop, ks ≠ [] ∧ m ks = some (some prop) ∧ ty prop = type ∧ r = .property prop ∧
        m' = TreeMap.delete m ks) ∨
        (¬ ∃ prop, ks ≠ [] ∧ m ks = some (some prop) ∧ ty prop = type) ∧ r.Threw ∧ m' = m

/-- The call behaves as on the finite tree of the components of its full path. -/
def Behaves (ty : P → τ) (t : PropertyTree P) (call : ℕ × TreeCall P τ) : Prop :=
  ∀ root, t.roots[call.1]? = some root →
    TreeBehaves ty t.guts.values (pathTokens root ++ pathTokens call.2.path) call.2
      (callOn ty t root call.2).1 (callOn ty t root call.2).2.guts.values

/-- Where a node would be taken out, its path ends in a component; and a property is popped with
such a path exactly where the type is its own. -/
def WellSpelled (ty : P → τ) (t : PropertyTree P) (call : ℕ × TreeCall P τ) : Prop :=
  ∀ root, t.roots[call.1]? = some root →
    pathTokens root ++ pathTokens call.2.path ≠ [] →
      match call.2 with
      | .remove path =>
        t.guts.values (pathTokens root ++ pathTokens path) ≠ none → Spelled path
      | .pop path type =>
        ∀ prop, t.guts.values (pathTokens root ++ pathTokens path) = some (some prop) →
          (Spelled path ↔ ty prop = type)
      | _ => True

/-! ## The invariant -/

/-- No node has two children of one name, and no child has an empty name. -/
structure TreeInv (t : PropertyTree P) : Prop where
  distinct : t.guts.Distinct
  named : ∀ ks, t.guts.values ks ≠ none → [] ∉ ks

theorem treeInv_make : TreeInv ({} : PropertyTree P) where
  distinct := KeyTree.distinct_empty
  named ks h := by
    cases ks with
    | nil => exact List.not_mem_nil
    | cons k ks => exact absurd (KeyTree.values_empty_cons k ks) h

variable {guts : KeyTree FsPath P} {root path : FsPath} {prop : P}

theorem find_eq_some_of_values {ks : List FsPath} {v : Option P} (h : guts.values ks = some v) :
    ∃ node, guts.find ks = some node ∧ node.value = v := Option.map_eq_some_iff.mp h

theorem popLeaf_of_spelled (hdistinct : guts.Distinct) (hspelled : Spelled path)
    (hthere : guts.values (pathTokens path) ≠ none) :
    ∃ after, popLeaf guts path = .ok after ∧ after.Distinct ∧
      after.values = TreeMap.delete guts.values (pathTokens path) := by
  obtain ⟨parent, hparent⟩ := exists_pathTokens_eq hspelled
  rw [hparent] at hthere
  have hdrop : (pathTokens path).dropLast = parent := by rw [hparent, List.dropLast_concat]
  obtain ⟨node, hnode⟩ := Option.ne_none_iff_exists'.mp
    (mt KeyTree.values_eq_none_iff.mpr hthere)
  rw [KeyTree.find_append] at hnode
  obtain ⟨above, habove, hnode⟩ := Option.bind_eq_some_iff.mp hnode
  obtain ⟨below, hbelow, -⟩ := Option.bind_eq_some_iff.mp hnode
  refine ⟨guts.graft parent (KeyTree.erase path.leaf), ?_, ?_, ?_⟩
  · rw [popLeaf, hdrop, habove, Option.bind_some, hbelow]
  · exact hdistinct.graft (fun _ hu => hu.erase _) parent
  · funext js
    rw [KeyTree.values_graft_erase hdistinct habove, TreeMap.delete, hparent]

theorem popLeaf_of_not_spelled (hnamed : ∀ ks, guts.values ks ≠ none → [] ∉ ks)
    (hspelled : ¬ Spelled path) : popLeaf guts path = .error (.keyNotFound path.leaf) := by
  have hleaf : path.leaf = [] := not_not.mp (mt leaf_ne_nil_iff.mp hspelled)
  have hnone : (guts.find (pathTokens path).dropLast).bind (KeyTree.child path.leaf) = none := by
    by_contra hne
    obtain ⟨below, hbelow⟩ := Option.ne_none_iff_exists'.mp hne
    obtain ⟨above, habove, hbelow⟩ := Option.bind_eq_some_iff.mp hbelow
    have hfound : guts.values ((pathTokens path).dropLast ++ [[]]) ≠ none := by
      rw [KeyTree.values_append habove, KeyTree.values_cons, ← hleaf, hbelow]
      exact Option.some_ne_none _
    exact hnamed _ hfound (List.mem_append_right _ List.mem_cons_self)
  rw [popLeaf, hnone]

theorem createAt_of_exists (prop : P) {other : P}
    (h : guts.values (pathTokens path) = some (some other)) :
    ∃ e, (createAt guts path prop).1 = some e ∧
      (createAt guts path prop).2.values = guts.values := by
  have hwalked : (guts.graft (pathTokens path) id).values = guts.values := by
    funext js
    rw [KeyTree.values_graft_id]
    split_ifs with hjs
    · have hne : guts.values js ≠ none :=
        KeyTree.values_ne_none_of_prefix (h ▸ Option.some_ne_none _) hjs
      obtain ⟨v, hv⟩ := Option.ne_none_iff_exists'.mp hne
      rw [hv, Option.getD_some]
    · rfl
  obtain ⟨node, hnode, hvalue⟩ := find_eq_some_of_values ((congrFun hwalked _).trans h)
  rw [createAt, hnode, Option.bind_some, hvalue]
  exact ⟨_, rfl, hwalked⟩

theorem createAt_of_not_exists (prop : P)
    (h : ¬ ∃ other, guts.values (pathTokens path) = some (some other)) :
    (createAt guts path prop).1 = none ∧
      (createAt guts path prop).2.values =
        TreeMap.create guts.values (pathTokens path) prop := by
  have hwalked : (guts.graft (pathTokens path) id).values (pathTokens path) = some none := by
    rw [KeyTree.values_graft_id, if_pos List.prefix_rfl, Option.some_inj]
    cases hv : guts.values (pathTokens path) with
    | none => rfl
    | some v =>
      cases v with
      | none => rfl
      | some other => exact absurd ⟨other, hv⟩ h
  obtain ⟨node, hnode, hvalue⟩ := find_eq_some_of_values hwalked
  rw [createAt, hnode, Option.bind_some, hvalue]
  refine ⟨rfl, funext fun js => ?_⟩
  rw [KeyTree.values_graft_setValue hnode, KeyTree.values_graft_id, TreeMap.create]

theorem distinct_createAt (h : guts.Distinct) : (createAt guts path prop).2.Distinct := by
  have hwalked : (guts.graft (pathTokens path) id).Distinct := h.graft (fun _ hu => hu) _
  rw [createAt]
  split
  · exact hwalked
  · exact hwalked.graft (fun _ hu => hu.setValue _) _

theorem accessAt_of_values (h : guts.values (pathTokens path) = some (some prop)) :
    accessAt guts path = .ok prop := by
  obtain ⟨node, hnode, hvalue⟩ := find_eq_some_of_values h
  rw [accessAt, hnode]
  dsimp only
  rw [hvalue]

theorem accessAt_of_not (h : ¬ ∃ prop, guts.values (pathTokens path) = some (some prop)) :
    ∃ e, accessAt guts path = .error e := by
  rw [accessAt]
  split
  · exact ⟨_, rfl⟩
  · rename_i node hnode
    split
    · exact ⟨_, rfl⟩
    · rename_i prop hvalue
      refine absurd ⟨prop, ?_⟩ h
      rw [KeyTree.values, hnode, Option.map_some, hvalue]

theorem popAt_of_values (h : guts.values (pathTokens path) = some (some prop))
    (hroot : pathTokens path ≠ []) :
    popAt guts path = (popLeaf guts path).map fun guts => (prop, guts) := by
  obtain ⟨node, hnode, hvalue⟩ := find_eq_some_of_values h
  rw [popAt, hnode]
  dsimp only
  rw [hvalue]
  dsimp only
  rw [if_neg hroot]

theorem popAt_of_not (h : ¬ ∃ prop, pathTokens path ≠ [] ∧
    guts.values (pathTokens path) = some (some prop)) : ∃ e, popAt guts path = .error e := by
  rw [popAt]
  split
  · exact ⟨_, rfl⟩
  · rename_i node hnode
    split
    · exact ⟨_, rfl⟩
    · rename_i prop hvalue
      split_ifs with hroot
      · exact ⟨_, rfl⟩
      · refine absurd ⟨prop, hroot, ?_⟩ h
        rw [KeyTree.values, hnode, Option.map_some, hvalue]

/-! ## One call -/

variable {t : PropertyTree P} {ty : P → τ} {type : τ}

theorem access_of_values (h : guts.values (pathTokens (root.join path)) = some (some prop))
    (htype : ty prop = type) : access ty guts root path type = .property prop := by
  rw [access, accessAt_of_values h]
  exact if_pos htype

theorem threw_access (h : ¬ ∃ prop,
    guts.values (pathTokens (root.join path)) = some (some prop) ∧ ty prop = type) :
    (access ty guts root path type).Threw := by
  by_cases hthere : ∃ prop, guts.values (pathTokens (root.join path)) = some (some prop)
  · obtain ⟨prop, hprop⟩ := hthere
    rw [access, accessAt_of_values hprop]
    dsimp only
    rw [if_neg fun htype => h ⟨prop, hprop, htype⟩]
    exact ⟨_, rfl⟩
  · obtain ⟨e, he⟩ := accessAt_of_not hthere
    rw [access, he]
    exact ⟨e, rfl⟩

theorem delete_ne {m : TreeMap P} {ks : List FsPath} (h : m ks ≠ none) :
    m ≠ TreeMap.delete m ks := by
  intro heq
  have hks := congrFun heq ks
  rw [TreeMap.delete, if_pos List.prefix_rfl] at hks
  exact h hks

theorem remove_behaves_iff (ty : P → τ) (hinv : TreeInv t) (root path : FsPath) :
    TreeBehaves ty t.guts.values (pathTokens (root.join path)) (.remove path)
        (callOn ty t root (.remove path)).1 (callOn ty t root (.remove path)).2.guts.values ↔
      (pathTokens (root.join path) ≠ [] → t.guts.values (pathTokens (root.join path)) ≠ none →
        Spelled path) := by
  by_cases hthere : pathTokens (root.join path) ≠ [] ∧
      t.guts.values (pathTokens (root.join path)) ≠ none
  · obtain ⟨node, hnode⟩ := Option.ne_none_iff_exists'.mp
      (mt KeyTree.values_eq_none_iff.mpr hthere.2)
    have hremove : remove t.guts (root.join path) = popLeaf t.guts (root.join path) := by
      rw [remove, hnode]
      dsimp only
      rw [if_neg hthere.1]
    by_cases hspelled : Spelled path
    · obtain ⟨after, hafter, -, hvalues⟩ := popLeaf_of_spelled hinv.distinct
        ((spelled_join_iff root path).mpr hspelled) hthere.2
      refine ⟨fun _ _ _ => hspelled, fun _ => Or.inl ⟨hthere.1, hthere.2, ?_, ?_⟩⟩
      · rw [callOn, hremove, hafter]
      · rw [callOn, hremove, hafter]
        exact hvalues
    · have hfail := popLeaf_of_not_spelled hinv.named
        (mt (spelled_join_iff root path).mp hspelled)
      refine ⟨fun hbehaves => ?_, fun h => absurd (h hthere.1 hthere.2) hspelled⟩
      rw [callOn, hremove, hfail] at hbehaves
      rcases hbehaves with ⟨-, -, hdone, -⟩ | ⟨hnone, -, -⟩
      · cases hdone
      · rcases hnone with hnone | hnone
        · exact absurd hnone hthere.1
        · exact absurd hnone hthere.2
  · refine ⟨fun _ hroot hsome => absurd ⟨hroot, hsome⟩ hthere, fun _ => Or.inr ?_⟩
    have hnot : pathTokens (root.join path) = [] ∨
        t.guts.values (pathTokens (root.join path)) = none := by
      by_contra hno
      rw [not_or] at hno
      exact hthere hno
    have hfail : ∃ e, remove t.guts (root.join path) = .error e := by
      rw [remove]
      split
      · exact ⟨_, rfl⟩
      · rename_i node hnode
        have hroot := hnot.resolve_right (mt KeyTree.values_eq_none_iff.mp
          (hnode ▸ Option.some_ne_none _))
        rw [if_pos hroot]
        exact ⟨_, rfl⟩
    obtain ⟨e, he⟩ := hfail
    rw [callOn, he]
    exact ⟨hnot, ⟨e, rfl⟩, rfl⟩

/-- **`pop`** behaves exactly where a path of an existing property ends in a component if and
only if the type is that of the property. -/
theorem pop_behaves_iff (ty : P → τ) (hinv : TreeInv t) (root path : FsPath) (type : τ) :
    TreeBehaves ty t.guts.values (pathTokens (root.join path)) (.pop path type)
        (callOn ty t root (.pop path type)).1
        (callOn ty t root (.pop path type)).2.guts.values ↔
      (pathTokens (root.join path) ≠ [] →
        ∀ prop, t.guts.values (pathTokens (root.join path)) = some (some prop) →
          (Spelled path ↔ ty prop = type)) := by
  by_cases hthere : ∃ prop, pathTokens (root.join path) ≠ [] ∧
      t.guts.values (pathTokens (root.join path)) = some (some prop)
  · obtain ⟨prop, hroot, hprop⟩ := hthere
    have hpop := popAt_of_values hprop hroot
    have hsome : t.guts.values (pathTokens (root.join path)) ≠ none :=
      hprop ▸ Option.some_ne_none _
    have huniq : ∀ other, t.guts.values (pathTokens (root.join path)) = some (some other) →
        other = prop := fun other hother =>
      Option.some.inj (Option.some.inj (hother.symm.trans hprop))
    by_cases hspelled : Spelled path
    · obtain ⟨after, hafter, -, hvalues⟩ := popLeaf_of_spelled hinv.distinct
        ((spelled_join_iff root path).mpr hspelled) hsome
      rw [callOn, hpop, hafter]
      constructor
      · intro hbehaves _ other hother
        rw [huniq other hother]
        refine ⟨fun _ => ?_, fun _ => hspelled⟩
        rcases hbehaves with ⟨found, -, hfound, htype, -⟩ | ⟨-, -, hsame⟩
        · rw [← huniq found hfound]
          exact htype
        · exact absurd (hsame.symm.trans hvalues) (delete_ne hsome)
      · intro h
        have htype := (h hroot prop hprop).mp hspelled
        exact Or.inl ⟨prop, hroot, hprop, htype, if_pos htype, hvalues⟩
    · have hfail := popLeaf_of_not_spelled hinv.named
        (mt (spelled_join_iff root path).mp hspelled)
      rw [callOn, hpop, hfail]
      constructor
      · intro hbehaves _ other hother
        rw [huniq other hother]
        refine ⟨fun h => absurd h hspelled, fun htype => ?_⟩
        rcases hbehaves with ⟨found, -, -, -, hthrew, -⟩ | ⟨hno, -, -⟩
        · cases hthrew
        · exact absurd ⟨prop, hroot, hprop, htype⟩ hno
      · intro h
        refine Or.inr ⟨?_, ⟨_, rfl⟩, rfl⟩
        rintro ⟨other, -, hother, htype⟩
        exact hspelled ((h hroot other hother).mpr htype)
  · obtain ⟨e, he⟩ := popAt_of_not hthere
    refine ⟨fun _ hroot prop hprop => absurd ⟨prop, hroot, hprop⟩ hthere, fun _ => ?_⟩
    rw [callOn, he]
    refine Or.inr ⟨?_, ⟨e, rfl⟩, rfl⟩
    rintro ⟨prop, hroot, hprop, -⟩
    exact hthere ⟨prop, hroot, hprop⟩

theorem create_behaves (root path : FsPath) (prop : P) :
    TreeBehaves ty t.guts.values (pathTokens (root.join path)) (.create path prop)
      (callOn ty t root (.create path prop)).1
      (callOn ty t root (.create path prop)).2.guts.values := by
  by_cases hthere : ∃ other, t.guts.values (pathTokens (root.join path)) = some (some other)
  · obtain ⟨other, hother⟩ := hthere
    obtain ⟨e, he, hvalues⟩ := createAt_of_exists prop hother
    have hcreate : createAt t.guts (root.join path) prop =
        (some e, (createAt t.guts (root.join path) prop).2) := by rw [← he]
    rw [callOn, hcreate]
    exact Or.inl ⟨⟨other, hother⟩, ⟨e, rfl⟩, hvalues⟩
  · obtain ⟨hnone, hvalues⟩ := createAt_of_not_exists prop hthere
    have hcreate : createAt t.guts (root.join path) prop =
        (none, (createAt t.guts (root.join path) prop).2) := by rw [← hnone]
    rw [callOn, hcreate]
    refine Or.inr ⟨hthere, access_of_values ?_ rfl, hvalues⟩
    rw [hvalues, TreeMap.create, if_pos rfl]

theorem access_behaves (root path : FsPath) (type : τ) :
    TreeBehaves ty t.guts.values (pathTokens (root.join path)) (.access path type)
      (callOn ty t root (.access path type)).1
      (callOn ty t root (.access path type)).2.guts.values := by
  refine ⟨rfl, ?_⟩
  by_cases hthere : ∃ prop,
      t.guts.values (pathTokens (root.join path)) = some (some prop) ∧ ty prop = type
  · obtain ⟨prop, hprop, htype⟩ := hthere
    exact Or.inl ⟨prop, hprop, htype, access_of_values hprop htype⟩
  · exact Or.inr ⟨hthere, threw_access hthere⟩

theorem list_behaves (hinv : TreeInv t) (root path : FsPath) :
    TreeBehaves ty t.guts.values (pathTokens (root.join path)) (.list path)
      (callOn ty t root (.list path)).1 (callOn ty t root (.list path)).2.guts.values := by
  cases hnode : t.guts.find (pathTokens (root.join path)) with
  | none =>
    rw [callOn, hnode]
    exact ⟨rfl, Or.inl ⟨KeyTree.values_eq_none_iff.mpr hnode, _, rfl⟩⟩
  | some node =>
    rw [callOn, hnode]
    refine ⟨rfl, Or.inr ⟨?_, node.keys, rfl, hinv.distinct _ node hnode, fun k => ?_⟩⟩
    · rw [Ne, KeyTree.values_eq_none_iff, hnode]
      exact Option.some_ne_none _
    · rw [KeyTree.values_append hnode]
      exact KeyTree.mem_keys_iff

theorem behaves_iff_wellSpelled (hinv : TreeInv t) (call : ℕ × TreeCall P τ) :
    Behaves ty t call ↔ WellSpelled ty t call := by
  obtain ⟨handle, call⟩ := call
  refine forall_congr' fun root => forall_congr' fun _ => ?_
  rw [← pathTokens_join]
  cases call with
  | subtree path => exact ⟨fun _ _ => trivial, fun _ => rfl⟩
  | existsAt path =>
    refine ⟨fun _ _ => trivial, fun _ => ⟨rfl, congrArg TreeResult.found ?_⟩⟩
    show _ = ((t.guts.find (pathTokens (root.join path))).map KeyTree.value).isSome
    rw [Option.isSome_map]
  | list path => exact ⟨fun _ _ => trivial, fun _ => list_behaves hinv root path⟩
  | create path prop => exact ⟨fun _ _ => trivial, fun _ => create_behaves root path prop⟩
  | access path type => exact ⟨fun _ _ => trivial, fun _ => access_behaves root path type⟩
  | remove path =>
    have h := remove_behaves_iff ty hinv root path
    rw [pathTokens_join] at h ⊢
    exact h
  | pop path type =>
    have h := pop_behaves_iff ty hinv root path type
    rw [pathTokens_join] at h ⊢
    exact h

/-! ## Whole runs -/

theorem popLeaf_ok (hdistinct : guts.Distinct) {after : KeyTree FsPath P}
    (h : popLeaf guts path = .ok after) :
    after.Distinct ∧ ∀ ks, after.values ks ≠ none → guts.values ks ≠ none := by
  rw [popLeaf] at h
  split at h
  · cases h
  · rename_i below hbelow
    rw [← Except.ok.inj h]
    obtain ⟨above, habove, -⟩ := Option.bind_eq_some_iff.mp hbelow
    refine ⟨hdistinct.graft (fun _ hu => hu.erase _) _, fun ks hks => ?_⟩
    rw [KeyTree.values_graft_erase hdistinct habove] at hks
    split_ifs at hks
    · exact absurd rfl hks
    · exact hks

theorem values_createAt {ks : List FsPath} (h : (createAt guts path prop).2.values ks ≠ none) :
    guts.values ks ≠ none ∨ ks <+: pathTokens path := by
  by_cases hthere : ∃ other, guts.values (pathTokens path) = some (some other)
  · obtain ⟨other, hother⟩ := hthere
    obtain ⟨e, -, hvalues⟩ := createAt_of_exists prop hother
    rw [hvalues] at h
    exact Or.inl h
  · rw [(createAt_of_not_exists prop hthere).2, TreeMap.create] at h
    split_ifs at h with heq hpre
    · exact Or.inr (heq ▸ List.prefix_rfl)
    · exact Or.inr hpre
    · exact Or.inl h

theorem TreeInv.withGuts (h : TreeInv t) {after : KeyTree FsPath P} (hdistinct : after.Distinct)
    (hvalues : ∀ ks, after.values ks ≠ none → t.guts.values ks ≠ none) :
    TreeInv { t with guts := after } :=
  ⟨hdistinct, fun ks hks => h.named ks (hvalues ks hks)⟩

theorem TreeInv.callOn (h : TreeInv t) (root : FsPath) (call : TreeCall P τ) :
    TreeInv (PropertyTree.callOn ty t root call).2 := by
  cases call with
  | subtree path => exact ⟨h.distinct, h.named⟩
  | existsAt path => exact h
  | access path type => exact h
  | list path =>
    rw [PropertyTree.callOn]
    split
    · exact h
    · exact h
  | remove path =>
    rw [PropertyTree.callOn]
    split
    · exact h
    · rename_i after hremove
      rw [remove] at hremove
      split at hremove
      · cases hremove
      · split_ifs at hremove
        exact h.withGuts (popLeaf_ok h.distinct hremove).1 (popLeaf_ok h.distinct hremove).2
  | pop path type =>
    rw [PropertyTree.callOn]
    split
    · exact h
    · rename_i prop after hpop
      rw [popAt] at hpop
      split at hpop
      · cases hpop
      · split at hpop
        · cases hpop
        · split_ifs at hpop
          cases hleaf : popLeaf t.guts (root.join path) with
          | error e =>
            rw [hleaf] at hpop
            cases hpop
          | ok guts =>
            rw [hleaf] at hpop
            cases hpop
            exact h.withGuts (popLeaf_ok h.distinct hleaf).1 (popLeaf_ok h.distinct hleaf).2
  | create path prop =>
    have hafter : TreeInv
        { t with guts := (createAt t.guts (root.join path) prop).2 } := by
      refine ⟨distinct_createAt h.distinct, fun ks hks hmem => ?_⟩
      rcases values_createAt hks with hold | hpre
      · exact h.named ks hold hmem
      · exact ne_nil_of_mem_pathTokens (hpre.subset hmem) rfl
    rw [PropertyTree.callOn]
    split
    all_goals
      rename_i hcreate
      rw [hcreate] at hafter
      exact hafter

/-- **The property tree.**  In a run of calls on a tree and its subtrees, every call behaves as
on the finite tree keyed by the components of its full path exactly when every call is well
spelled. -/
theorem behaves_iff (ty : P → τ) (calls : List (ℕ × TreeCall P τ)) (t : PropertyTree P)
    (h : run (step ty) {} calls = some t) :
    EveryStep (step ty) (Behaves ty) {} calls ↔ EveryStep (step ty) (WellSpelled ty) {} calls := by
  refine everyStep_congr (I := TreeInv) (fun s call s' hinv hstep => ?_) treeInv_make h
  refine ⟨?_, behaves_iff_wellSpelled hinv call⟩
  obtain ⟨root, -, hnext⟩ := Option.map_eq_some_iff.mp hstep
  rw [← hnext]
  exact hinv.callOn root call.2

/-! ## Two spellings of one path -/

/-- A property of type `false` is created, and taken out under a path. -/
private def createAndRemove (path : FsPath) : List (ℕ × TreeCall Bool Bool) :=
  [(0, .create ['/', 'r', 'x', '/', '0'] false), (0, .remove path)]

/-- Under a path that ends in its last component the node is removed. -/
theorem behaves_createAndRemove :
    EveryStep (step id) (Behaves id) {} (createAndRemove ['r', 'x', '/', '/', '0']) := by
  have hrun : (run (step id) {} (createAndRemove ['r', 'x', '/', '/', '0'])).isSome = true := rfl
  obtain ⟨t, ht⟩ := Option.isSome_iff_exists.mp hrun
  refine (behaves_iff id _ t ht).mpr ⟨fun _ _ _ => trivial, fun t' _ => ⟨?_, fun _ _ => trivial⟩⟩
  intro root _ _ _
  exact ⟨'0', rfl, by decide⟩

/-- **With a slash at the end** the node is not removed, although the path denotes it. -/
theorem remove_with_slash :
    ¬ ∀ (calls : List (ℕ × TreeCall Bool Bool)) (t : PropertyTree Bool),
      run (step id) {} calls = some t → EveryStep (step id) (Behaves id) {} calls := by
  intro hall
  have hrun : (run (step id) {} (createAndRemove ['r', 'x', '/', '0', '/'])).isSome = true := rfl
  obtain ⟨t, ht⟩ := Option.isSome_iff_exists.mp hrun
  obtain ⟨-, hremove⟩ := hall _ t ht
  rcases (hremove _ rfl).1 [] rfl with ⟨-, -, hdone, -⟩ | ⟨hnone, -, -⟩
  · cases hdone
  · rcases hnone with hnone | hnone
    · exact absurd hnone (by decide)
    · cases hnone

end PropertyTree
end UhdHost
