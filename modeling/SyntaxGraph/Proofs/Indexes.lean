import Mathlib.Algebra.Ring.Nat
import Mathlib.Data.List.Induction
import Mathlib.Data.List.Nodup
import SyntaxGraph.Graph.Stats
import SyntaxGraph.Proofs.Tree

/-!
# A graph is its last nodes

A graph keeps two indexes beside its nodes and patches both whenever a node replaces
another. What a graph answers nevertheless depends on one thing only: which node was added
last under each address. `standing` is that map, and every query, every count and the
text that is hashed can be read off it. Graphs of the same last nodes therefore cannot be
told apart, except by the order in which links to an address are listed.

The indexes are compared with a list of nodes up to order. Taking the replaced node out
and putting the new one in then are one lemma each, and the list changes by one node.
-/

namespace SyntaxGraph

/-- The nodes that stand after some were added: the last one under each address. -/
def standing (nodes : List Node) : OrderedMap Address Node :=
  .ofList (nodes.map fun node => (node.address, node))

/-- The links of a node to an address, as the index of links keeps them. -/
def Node.linksTo (n : Node) (target : Address) : List (Role × Address) :=
  (n.links.filter fun link => link.2 == target).map fun link => (link.1, n.address)

namespace OrderedMap

variable {κ : Type} [Ord κ] [Std.TransOrd κ] {α : Type}

/-- Apart from the order, an insertion puts a value in place of that of the same key. -/
theorem insert_values_perm (m : OrderedMap κ α) (key : κ) (value : α) :
    (m.insert key value).values.Perm (value :: (m.erase key).values) :=
  (m.insert_entries_perm key value).map Prod.snd

theorem values_perm [Std.LawfulEqOrd κ] (m : OrderedMap κ α) (key : κ) :
    m.values.Perm ((m.get? key).toList ++ (m.erase key).values) := by
  have split := (m.entries_perm key).map Prod.snd
  rw [List.map_append, List.map_map] at split
  refine split.trans (.of_eq (congrArg (· ++ _) ?_))
  cases m.get? key <;> rfl

theorem nodup_of_rising {xs : List (κ × α)} (rising : xs.Pairwise fun a b => compare a.1 b.1 = .lt) :
    xs.Nodup := by
  refine rising.imp ?_
  rintro a b less rfl
  simp at less

/-- A list that rises by a key is determined by its members. -/
theorem eq_of_perm {β : Type} {key : β → κ} {xs ys : List β} (perm : xs.Perm ys)
    (rising : xs.Pairwise fun a b => compare (key a) (key b) = .lt)
    (rising' : ys.Pairwise fun a b => compare (key a) (key b) = .lt) : xs = ys := by
  apply perm.eq_of_pairwise _ rising rising'
  intro a b _ _ less greater
  exact absurd greater (Std.OrientedCmp.not_lt_of_lt less)

/-- Rising lists with the same entries are the same. -/
theorem eq_of_rising {xs ys : List (κ × α)} (rising : xs.Pairwise fun a b => compare a.1 b.1 = .lt)
    (rising' : ys.Pairwise fun a b => compare a.1 b.1 = .lt) (same : ∀ entry, entry ∈ xs ↔ entry ∈ ys) :
    xs = ys :=
  eq_of_perm ((List.perm_ext_iff_of_nodup (nodup_of_rising rising) (nodup_of_rising rising')).mpr same)
    rising rising'

/-- Maps that answer alike are the same. -/
theorem ext_get? [Std.LawfulEqOrd κ] {m n : OrderedMap κ α} (same : ∀ key, m.get? key = n.get? key) : m = n := by
  apply ext
  apply eq_of_rising m.rising n.rising
  rintro ⟨key, value⟩
  rw [← get?_eq_some_iff, ← get?_eq_some_iff, same]

theorem erase_insert_self [Std.LawfulEqOrd κ] (m : OrderedMap κ α) (key : κ) (value : α) :
    (m.insert key value).erase key = m.erase key := by
  apply ext_get?
  intro other
  simp only [get?_erase, get?_insert]
  split <;> rfl

theorem erase_insert_of_ne [Std.LawfulEqOrd κ] (m : OrderedMap κ α) {key other : κ} (value : α) (ne : other ≠ key) :
    (m.insert other value).erase key = (m.erase key).insert other value := by
  apply ext_get?
  intro asked
  simp only [get?_erase, get?_insert]
  split
  · rename_i same
    rw [Std.LawfulEqOrd.eq_of_compare same, if_neg]
    exact fun equal => ne (Std.LawfulEqOrd.eq_of_compare equal).symm
  · rfl

end OrderedMap

/-! ## The last node under an address -/

theorem standing_concat (nodes : List Node) (node : Node) :
    standing (nodes ++ [node]) = (standing nodes).insert node.address node := by
  simp [standing, OrderedMap.ofList, List.foldl_append]

/-- The node that stands under an address is the last one added there. -/
theorem get?_standing (nodes : List Node) (address : Address) :
    (standing nodes).get? address = nodes.reverse.find? fun node => node.address == address := by
  induction nodes using List.reverseRecOn with
  | nil => rfl
  | append_singleton nodes node ih =>
      rw [standing_concat, OrderedMap.get?_insert, List.reverse_append, ih]
      by_cases same : node.address = address
      · simp [same]
      · have differs : compare address node.address ≠ .eq := fun equal =>
          same (Std.LawfulEqOrd.eq_of_compare equal).symm
        simp [same, differs]

/-- A node stands under its own address. -/
theorem standing_keyed {nodes : List Node} {entry : Address × Node}
    (member : entry ∈ (standing nodes).entries) : entry.2.address = entry.1 := by
  have found := ((standing nodes).get?_eq_some_iff entry.1 entry.2).mpr member
  rw [get?_standing] at found
  simpa using List.find?_some found

/-- Of nodes with different addresses all stand. -/
theorem mem_standing_of_nodup {nodes : List Node} (distinct : (nodes.map (·.address)).Nodup)
    {entry : Address × Node} :
    entry ∈ (standing nodes).entries ↔ entry.2 ∈ nodes ∧ entry.2.address = entry.1 := by
  obtain ⟨address, node⟩ := entry
  rw [← OrderedMap.get?_eq_some_iff, get?_standing]
  constructor
  · intro found
    exact ⟨by simpa using List.mem_of_find?_eq_some found, by simpa using List.find?_some found⟩
  · intro ⟨member, here⟩
    dsimp only at member here ⊢
    subst here
    cases found : nodes.reverse.find? fun other => other.address == node.address with
    | none => simpa using List.find?_eq_none.mp found node (by simpa using member)
    | some other =>
        have same : other.address = node.address := by simpa using List.find?_some found
        have standing : other ∈ nodes := by simpa using List.mem_of_find?_eq_some found
        exact congrArg some (List.inj_on_of_nodup_map distinct standing member same)

/-- The order in which nodes of different addresses are added plays no part. -/
theorem standing_eq_of_perm {nodes others : List Node} (perm : nodes.Perm others)
    (distinct : (nodes.map (·.address)).Nodup) : standing nodes = standing others := by
  apply OrderedMap.ext
  apply OrderedMap.eq_of_rising (standing nodes).rising (standing others).rising
  intro entry
  rw [mem_standing_of_nodup distinct,
    mem_standing_of_nodup ((perm.map (·.address)).nodup_iff.mp distinct), perm.mem_iff]

namespace Graph

/-! ## Lists under keys -/

section Lists

variable {κ α : Type} [Ord κ] [Std.TransOrd κ] [Std.LawfulEqOrd κ] [DecidableEq κ]

/-- The list under a key, empty if there is none. -/
def listAt (index : Std.TreeMap κ (List α)) (key : κ) : List α := (index[key]?).getD []

theorem listAt_appendAt (index : Std.TreeMap κ (List α)) (key other : κ) (element : α) :
    listAt (appendAt index key element) other =
      listAt index other ++ if other = key then [element] else [] := by
  unfold listAt appendAt
  rw [Std.TreeMap.getElem?_alter]
  by_cases same : other = key
  · subst same
    simp only [Std.ReflCmp.compare_self, if_true]
    cases index[other]? <;> rfl
  · have differs : compare key other ≠ .eq := fun equal =>
      same (Std.LawfulEqOrd.eq_of_compare equal).symm
    simp [same, differs]

theorem listAt_filterAt (index : Std.TreeMap κ (List α)) (key other : κ) (keep : α → Bool) :
    listAt (filterAt index key keep) other =
      if other = key then (listAt index other).filter keep else listAt index other := by
  unfold listAt filterAt
  rw [Std.TreeMap.getElem?_alter]
  by_cases same : other = key
  · subst same
    simp only [Std.ReflCmp.compare_self, if_true]
    cases index[other]? <;> rfl
  · have differs : compare key other ≠ .eq := fun equal =>
      same (Std.LawfulEqOrd.eq_of_compare equal).symm
    simp [same, differs]

/-- Elements put under several keys, one after the other. -/
theorem listAt_foldl_appendAt {β : Type} (entries : List β) (key : β → κ) (element : β → α)
    (index : Std.TreeMap κ (List α)) (other : κ) :
    listAt (entries.foldl (fun index entry => appendAt index (key entry) (element entry)) index) other =
      listAt index other ++ (entries.filter fun entry => other = key entry).map element := by
  induction entries generalizing index with
  | nil => simp
  | cons entry entries ih =>
      rw [List.foldl_cons, ih, listAt_appendAt, List.append_assoc]
      by_cases same : other = key entry <;> simp [same]

/-- Elements taken out under several keys. A second pass over one key takes out no more. -/
theorem listAt_foldl_filterAt {β : Type} (entries : List β) (key : β → κ) (keep : α → Bool)
    (index : Std.TreeMap κ (List α)) (other : κ) :
    listAt (entries.foldl (fun index entry => filterAt index (key entry) keep) index) other =
      if other ∈ entries.map key then (listAt index other).filter keep else listAt index other := by
  induction entries generalizing index with
  | nil => simp
  | cons entry entries ih =>
      rw [List.foldl_cons, ih, listAt_filterAt]
      by_cases here : other = key entry <;> by_cases later : other ∈ entries.map key <;>
        simp [here, later]

end Lists

/-! ## Indexes of a list of nodes -/

/-- The indexes of a graph list the given nodes and their links, in some order. -/
structure Lists (g : Graph) (nodes : List Node) : Prop where
  kinds : ∀ kind, (listAt g.byKind kind).Perm ((nodes.filter fun n => n.kind == kind).map (·.address))
  links : ∀ target, (g.incoming target).Perm (nodes.flatMap (·.linksTo target))

namespace Lists

variable {g : Graph} {nodes others : List Node} {node : Node}

theorem empty : Lists .empty [] := by
  constructor
  · intro kind
    simp [listAt, Graph.empty]
  · intro target
    simp [Graph.incoming, Graph.empty]

theorem perm (lists : g.Lists nodes) (same : nodes.Perm others) : g.Lists others := by
  constructor
  · intro kind
    exact (lists.kinds kind).trans ((same.filter _).map _)
  · intro target
    exact (lists.links target).trans (same.flatMap_right _)

/-- A node put into the indexes is listed with the others. -/
theorem index (lists : g.Lists nodes) (node : Node) : (g.index node).Lists (node :: nodes) := by
  constructor
  · intro kind
    show (listAt (appendAt g.byKind node.kind node.address) kind).Perm _
    rw [listAt_appendAt]
    by_cases same : kind = node.kind
    · subst same
      simpa using (List.perm_append_singleton _ _).trans ((lists.kinds node.kind).cons node.address)
    · have differs : (node.kind == kind) = false := by simpa using Ne.symm same
      simpa [same, differs] using lists.kinds kind
  · intro target
    have linksTo : (node.links.filter fun link => target = link.2).map (fun link => (link.1, node.address)) =
        node.linksTo target := by
      unfold Node.linksTo
      congr 2
      funext link
      exact decide_eq_decide.mpr eq_comm
    have listed : (g.index node).incoming target = g.incoming target ++ node.linksTo target := by
      rw [← linksTo]
      exact listAt_foldl_appendAt node.links (·.2) _ g.incomingIndex target
    rw [listed, List.flatMap_cons]
    exact List.perm_append_comm.trans ((lists.links target).append_left _)

/-- What is listed of nodes elsewhere is kept when the links of an address are taken out. -/
theorem linksTo_filter (elsewhere : ∀ n ∈ nodes, n.address ≠ node.address) (target : Address) :
    (nodes.flatMap (·.linksTo target)).filter (fun source => source.2 != node.address) =
      nodes.flatMap (·.linksTo target) := by
  refine List.filter_eq_self.mpr fun source member => ?_
  obtain ⟨n, inNodes, inLinks⟩ := List.mem_flatMap.mp member
  obtain ⟨link, -, rfl⟩ := List.mem_map.mp inLinks
  simpa using elsewhere n inNodes

/-- A node taken out of the indexes is the only one that is no longer listed. -/
theorem unindex (lists : g.Lists (node :: nodes)) (elsewhere : ∀ n ∈ nodes, n.address ≠ node.address) :
    (g.unindex node).Lists nodes := by
  constructor
  · intro kind
    have others : ((nodes.filter fun n => n.kind == kind).map (·.address)).filter
        (fun address => address != node.address) = (nodes.filter fun n => n.kind == kind).map (·.address) := by
      refine List.filter_eq_self.mpr fun address member => ?_
      obtain ⟨n, inNodes, rfl⟩ := List.mem_map.mp member
      simpa using elsewhere n (List.mem_filter.mp inNodes).1
    show (listAt (filterAt g.byKind node.kind _) kind).Perm _
    rw [listAt_filterAt]
    have listed := lists.kinds kind
    by_cases same : kind = node.kind
    · subst same
      have kept := listed.filter fun address => address != node.address
      simp only [List.filter_cons, beq_self_eq_true, if_true, List.map_cons, bne_self_eq_false,
        Bool.false_eq_true, if_false] at kept
      rw [others] at kept
      simpa using kept
    · have differs : (node.kind == kind) = false := by simpa using Ne.symm same
      simpa [same, differs] using listed
  · intro target
    have listed : (g.unindex node).incoming target = if target ∈ node.links.map (·.2) then
        (g.incoming target).filter fun source => source.2 != node.address else g.incoming target :=
      listAt_foldl_filterAt node.links (·.2) _ g.incomingIndex target
    have before := lists.links target
    rw [List.flatMap_cons] at before
    rw [listed]
    split
    · have kept := before.filter fun source => source.2 != node.address
      have gone : (node.linksTo target).filter (fun source => source.2 != node.address) = [] := by
        simp [Node.linksTo]
      rwa [List.filter_append, gone, List.nil_append, linksTo_filter elsewhere] at kept
    · rename_i unlinked
      -- An address the node does not point at has no link of the node in its list.
      have none : node.linksTo target = [] := by
        simp only [Node.linksTo, List.map_eq_nil_iff, List.filter_eq_nil_iff, beq_iff_eq]
        intro link member same
        exact unlinked (List.mem_map.mpr ⟨link, member, same⟩)
      rwa [none, List.nil_append] at before

end Lists

/-! ## Graphs after nodes were added -/

/-- A graph holds the nodes of a map, and its indexes list them. -/
structure Tracks (g : Graph) (m : OrderedMap Address Node) : Prop where
  nodes : ∀ address, g.nodes[address]? = m.get? address
  lists : g.Lists m.values

/-- Once nothing is listed under its address, a node may be put in. -/
theorem Tracks.put {g cleared : Graph} {m : OrderedMap Address Node} (tracks : g.Tracks m) {node : Node}
    (lists : cleared.Lists (m.erase node.address).values) :
    Tracks ⟨g.nodes.insert node.address node, (cleared.index node).byKind,
      (cleared.index node).incomingIndex⟩ (m.insert node.address node) := by
  have listed := (lists.index node).perm (m.insert_values_perm node.address node).symm
  constructor
  · intro address
    rw [Std.TreeMap.getElem?_insert, OrderedMap.get?_insert, tracks.nodes]
    simp only [Std.OrientedCmp.eq_comm]
  · exact ⟨listed.kinds, listed.links⟩

/-- Adding a node replaces the node that stood under its address, in the indexes as well. -/
theorem Tracks.add {g : Graph} {m : OrderedMap Address Node} (tracks : g.Tracks m)
    (keyed : ∀ entry ∈ m.entries, entry.2.address = entry.1) (node : Node) :
    (g.add node).Tracks (m.insert node.address node) := by
  have before := tracks.lists.perm (m.values_perm node.address)
  unfold Graph.add
  dsimp only
  split
  · rename_i previous found
    rw [tracks.nodes] at found
    rw [found] at before
    have here : previous.address = node.address := keyed _ ((m.get?_eq_some_iff _ _).mp found)
    refine tracks.put (before.unindex ?_)
    intro n member same
    obtain ⟨entry, inEntries, rfl⟩ := List.mem_map.mp member
    obtain ⟨kept, differs⟩ := List.mem_filter.mp inEntries
    rw [← here, ← same, keyed entry kept] at differs
    simp at differs
  · rename_i found
    rw [tracks.nodes] at found
    rw [found] at before
    exact tracks.put before

/-- A graph tracks the last nodes, however it was put together. -/
theorem ofNodes_tracks (nodes : List Node) : (ofNodes nodes).Tracks (standing nodes) := by
  induction nodes using List.reverseRecOn with
  | nil => exact ⟨fun _ => Std.TreeMap.getElem?_emptyc, .empty⟩
  | append_singleton nodes node ih =>
      rw [standing_concat, ofNodes, List.foldl_append]
      exact ih.add (fun _ member => standing_keyed member) node

/-! ## What a graph answers -/

/-- Every query answers as if it were computed from a map of nodes. -/
structure Refines (g : Graph) (m : OrderedMap Address Node) : Prop where
  get? : ∀ address, g.get? address = m.get? address
  size : g.size = m.size
  isEmpty : g.isEmpty = m.isEmpty
  all : g.all = m.values
  ofKind : ∀ kind, g.ofKind kind = m.values.filter fun n => n.kind == kind
  related : ∀ address role, g.related address role = match m.get? address with
    | some node => (node.related role).filterMap m.get?
    | none => []
  /-- Links are listed once per occurrence, in some order. -/
  incoming : ∀ target, (g.incoming target).Perm (m.values.flatMap (·.linksTo target))
  dangling : g.dangling = m.values.flatMap fun node =>
    (node.links.filter fun link => !m.contains link.2).map fun link => (node.address, link.1, link.2)
  /-- The bytes that are hashed are those of the nodes in order, one per line. -/
  fingerprint : g.fingerprint = Blake3.hexDigest (Node.lines m.values).toUTF8
  counted : g.stats.nodes = m.size
  relations : g.stats.relations = (m.values.map fun node => node.links.length).sum
  unknown : g.stats.unknown = (m.values.filter fun n => n.kind == .unknownExpression).length
  kindsRising : g.stats.byKind.Pairwise fun a b => compare a.1 b.1 = .lt
  /-- Exactly the kinds that occur are counted. -/
  kinds : ∀ kind count, (kind, count) ∈ g.stats.byKind ↔
    0 < count ∧ count = (m.values.filter fun n => n.kind == kind).length
  kindsTotal : (g.stats.byKind.map (·.2)).sum = g.stats.nodes

theorem values_eq {κ α : Type} [Ord κ] (index : Std.TreeMap κ α) :
    index.values = index.toList.map (·.2) := by
  have folded : index.values = index.foldr (fun _ value values => value :: values) [] := rfl
  rw [folded, Std.TreeMap.foldr_eq_foldr_toList, List.map_eq_foldr]

namespace Tracks

variable {g : Graph} {m : OrderedMap Address Node}

theorem toList_eq (tracks : g.Tracks m) : g.nodes.toList = m.entries := by
  apply OrderedMap.eq_of_rising Std.TreeMap.ordered_keys_toList m.rising
  rintro ⟨address, node⟩
  rw [Std.TreeMap.mem_toList_iff_getElem?_eq_some, tracks.nodes, OrderedMap.get?_eq_some_iff]

theorem all_eq (tracks : g.Tracks m) : g.all = m.values := by
  rw [all, values_eq, tracks.toList_eq]
  rfl

theorem get?_eq (tracks : g.Tracks m) : g.get? = m.get? := funext tracks.nodes

/-- The list under a kind is read back as the nodes of that kind. -/
theorem filterMap_get? (tracks : g.Tracks m) (keyed : ∀ entry ∈ m.entries, entry.2.address = entry.1)
    (kind : NodeKind) :
    ((listAt g.byKind kind).filterMap g.get?).Perm (m.values.filter fun n => n.kind == kind) := by
  refine ((tracks.lists.kinds kind).filterMap g.get?).trans (.of_eq ?_)
  rw [List.filterMap_map, tracks.get?_eq]
  have found : ∀ n ∈ m.values.filter fun n => n.kind == kind, m.get? n.address = some n := by
    intro n member
    obtain ⟨entry, inEntries, rfl⟩ := List.mem_map.mp (List.mem_filter.mp member).1
    exact (m.get?_eq_some_iff _ _).mpr (keyed entry inEntries ▸ inEntries)
  exact (List.filterMap_congr found).trans List.filterMap_some

theorem values_rising (keyed : ∀ entry ∈ m.entries, entry.2.address = entry.1) :
    m.values.Pairwise fun a b => compare a.address b.address = .lt := by
  refine List.pairwise_map.mpr (m.rising.imp_of_mem ?_)
  intro a b inEntries inEntries' less
  rwa [keyed a inEntries, keyed b inEntries']

theorem ofKind_eq (tracks : g.Tracks m) (keyed : ∀ entry ∈ m.entries, entry.2.address = entry.1)
    (kind : NodeKind) : g.ofKind kind = m.values.filter fun n => n.kind == kind := by
  have found := tracks.filterMap_get? keyed kind
  have rising := (values_rising keyed).filter fun n => n.kind == kind
  have distinct : (((listAt g.byKind kind).filterMap g.get?).map (·.address)).Nodup := by
    refine (found.map (·.address)).nodup_iff.mpr (List.pairwise_map.mpr (rising.imp ?_))
    intro a b less same
    simp [same] at less
  exact OrderedMap.eq_of_perm ((List.mergeSort_perm _ _).trans found)
    (Compiler.sortNodes_rising distinct) rising

/-- A kind is counted if its list is not empty, with the length of the list. -/
theorem mem_stats_byKind (g : Graph) (kind : NodeKind) (count : Nat) :
    (kind, count) ∈ g.stats.byKind ↔ 0 < count ∧ count = (listAt g.byKind kind).length := by
  unfold stats listAt
  simp only [List.mem_map, List.mem_filter, Prod.mk.injEq, Prod.exists]
  constructor
  · rintro ⟨_, addresses, ⟨member, occupied⟩, rfl, rfl⟩
    rw [Std.TreeMap.mem_toList_iff_getElem?_eq_some.mp member]
    simpa [List.length_pos_iff] using occupied
  · rintro ⟨positive, rfl⟩
    cases found : g.byKind[kind]? with
    | none => simp [found] at positive
    | some addresses =>
        refine ⟨kind, addresses, ⟨Std.TreeMap.mem_toList_iff_getElem?_eq_some.mpr found, ?_⟩, rfl, rfl⟩
        simpa [found, List.length_pos_iff] using positive

theorem stats_byKind_rising (g : Graph) :
    g.stats.byKind.Pairwise fun a b => compare a.1 b.1 = .lt :=
  List.pairwise_map.mpr (Std.TreeMap.ordered_keys_toList.filter _)

/-- Counted class by class, a list has its length in all. -/
theorem sum_length_filter {α κ : Type} [DecidableEq κ] (label : α → κ) {classes : List κ}
    (distinct : classes.Nodup) {xs : List α} (covered : ∀ x ∈ xs, label x ∈ classes) :
    (classes.map fun c => (xs.filter fun x => label x == c).length).sum = xs.length := by
  induction classes generalizing xs with
  | nil => simp [List.eq_nil_iff_forall_not_mem.mpr fun x member => nomatch covered x member]
  | cons c classes ih =>
      obtain ⟨new, rest⟩ := List.nodup_cons.mp distinct
      have covered' : ∀ x ∈ xs.filter fun x => !(label x == c), label x ∈ classes := by
        intro x member
        obtain ⟨inXs, differs⟩ := List.mem_filter.mp member
        exact (List.mem_cons.mp (covered x inXs)).resolve_left (by simpa using differs)
      have others := ih rest covered'
      have kept : classes.map (fun d => ((xs.filter fun x => !(label x == c)).filter
          fun x => label x == d).length) =
          classes.map fun d => (xs.filter fun x => label x == d).length := by
        refine List.map_congr_left fun d member => ?_
        rw [List.filter_filter]
        congr 2
        funext x
        by_cases same : label x = d
        · have differs : d ≠ c := fun equal => new (equal ▸ member)
          simp [same, differs]
        · simp [same]
      rw [kept] at others
      rw [List.map_cons, List.sum_cons, others, ← List.length_eq_length_filter_add]

theorem stats_total (tracks : g.Tracks m) : (g.stats.byKind.map (·.2)).sum = m.size := by
  have counted : ∀ kind, (listAt g.byKind kind).length =
      (m.values.filter fun n => n.kind == kind).length := by
    intro kind
    rw [(tracks.lists.kinds kind).length_eq, List.length_map]
  have counts : g.stats.byKind.map (·.2) = (g.stats.byKind.map (·.1)).map fun kind =>
      (m.values.filter fun n => n.kind == kind).length := by
    rw [List.map_map]
    refine List.map_congr_left fun entry member => ?_
    rw [((mem_stats_byKind g entry.1 entry.2).mp member).2, counted]
    rfl
  have distinct : (g.stats.byKind.map (·.1)).Nodup := by
    refine List.pairwise_map.mpr ((stats_byKind_rising g).imp ?_)
    intro a b less same
    simp [same] at less
  have covered : ∀ n ∈ m.values, n.kind ∈ g.stats.byKind.map (·.1) := by
    intro n member
    refine List.mem_map.mpr ⟨(n.kind, _), (mem_stats_byKind g n.kind _).mpr ⟨?_, rfl⟩, rfl⟩
    rw [counted]
    exact List.length_pos_of_mem (List.mem_filter.mpr ⟨member, by simp⟩)
  rw [counts, sum_length_filter Node.kind distinct covered]
  simp [OrderedMap.values, OrderedMap.size]

theorem refines (tracks : g.Tracks m) (keyed : ∀ entry ∈ m.entries, entry.2.address = entry.1) :
    g.Refines m := by
  have size : g.size = m.size := by
    rw [Graph.size, ← Std.TreeMap.length_toList, tracks.toList_eq, OrderedMap.size]
  have counted : ∀ kind, (listAt g.byKind kind).length =
      (m.values.filter fun n => n.kind == kind).length := fun kind =>
    (tracks.lists.kinds kind).length_eq.trans (List.length_map _)
  constructor
  case get? => exact tracks.nodes
  case size => exact size
  case isEmpty => rw [Graph.isEmpty, ← Std.TreeMap.isEmpty_toList, tracks.toList_eq, OrderedMap.isEmpty]
  case all => exact tracks.all_eq
  case ofKind => exact tracks.ofKind_eq keyed
  case related =>
    intro address role
    cases found : m.get? address <;> simp [Graph.related, tracks.get?_eq, found]
  case incoming => exact tracks.lists.links
  case dangling =>
    rw [Graph.dangling, tracks.all_eq, tracks.get?_eq]
    simp only [OrderedMap.contains, Option.not_isSome]
  case fingerprint => rw [Graph.fingerprint, tracks.all_eq]
  case counted => exact size
  case relations => rw [stats, tracks.all_eq, List.sum_eq_foldl, List.foldl_map]
  case unknown => exact counted .unknownExpression
  case kindsRising => exact stats_byKind_rising g
  case kinds =>
    intro kind count
    rw [mem_stats_byKind, counted]
  case kindsTotal => exact tracks.stats_total.trans size.symm

end Tracks

/-- Graphs that answer every query alike, but for the order of the links to an address. -/
structure Alike (g h : Graph) : Prop where
  get? : ∀ address, g.get? address = h.get? address
  size : g.size = h.size
  isEmpty : g.isEmpty = h.isEmpty
  all : g.all = h.all
  ofKind : ∀ kind, g.ofKind kind = h.ofKind kind
  related : ∀ address role, g.related address role = h.related address role
  incoming : ∀ target, (g.incoming target).Perm (h.incoming target)
  dangling : g.dangling = h.dangling
  fingerprint : g.fingerprint = h.fingerprint
  stats : g.stats = h.stats

theorem Refines.stats_eq {g h : Graph} {m : OrderedMap Address Node} (first : g.Refines m)
    (second : h.Refines m) : g.stats = h.stats := by
  have kinds : g.stats.byKind = h.stats.byKind := by
    apply OrderedMap.eq_of_rising first.kindsRising second.kindsRising
    rintro ⟨kind, count⟩
    rw [first.kinds, second.kinds]
  have nodes := first.counted.trans second.counted.symm
  have relations := first.relations.trans second.relations.symm
  have unknown := first.unknown.trans second.unknown.symm
  generalize g.stats = a at *
  generalize h.stats = b at *
  cases a
  cases b
  simp_all

/-- What refines the same map cannot be told apart. -/
theorem Refines.alike {g h : Graph} {m : OrderedMap Address Node} (first : g.Refines m)
    (second : h.Refines m) : g.Alike h where
  get? address := (first.get? address).trans (second.get? address).symm
  size := first.size.trans second.size.symm
  isEmpty := first.isEmpty.trans second.isEmpty.symm
  all := first.all.trans second.all.symm
  ofKind kind := (first.ofKind kind).trans (second.ofKind kind).symm
  related address role := (first.related address role).trans (second.related address role).symm
  incoming target := (first.incoming target).trans (second.incoming target).symm
  dangling := first.dangling.trans second.dangling.symm
  fingerprint := first.fingerprint.trans second.fingerprint.symm
  stats := first.stats_eq second

/-- A graph is the map of the nodes added last, whatever was added before: it answers from that
map, graphs with the same map answer alike, and the order in which nodes of different addresses
were added plays no part. -/
theorem ofNodes_lastWrite :
    (∀ nodes : List Node, (ofNodes nodes).Refines (standing nodes) ∧
      ∀ address, (standing nodes).get? address =
        nodes.reverse.find? fun node => node.address == address) ∧
    (∀ nodes others : List Node, standing nodes = standing others →
      (ofNodes nodes).Alike (ofNodes others)) ∧
    ∀ nodes others : List Node, nodes.Perm others → (nodes.map (·.address)).Nodup →
      (ofNodes nodes).Alike (ofNodes others) := by
  have refines : ∀ nodes, (ofNodes nodes).Refines (standing nodes) := fun nodes =>
    (ofNodes_tracks nodes).refines fun _ member => standing_keyed member
  have alike : ∀ nodes others, standing nodes = standing others →
      (ofNodes nodes).Alike (ofNodes others) := by
    intro nodes others same
    exact (refines nodes).alike (same ▸ refines others)
  refine ⟨fun nodes => ⟨refines nodes, get?_standing nodes⟩, alike, ?_⟩
  intro nodes others perm distinct
  exact alike nodes others (standing_eq_of_perm perm distinct)

/-- A call that replaces a block, keeps its target and gains another one that is missing. -/
theorem ofNodes_lastWrite_replaced :
    let target := Node.make ⟨"expr/1"⟩ .variable
    let replaced := (Node.make ⟨"expr/0"⟩ .block).relate .statement target.address
    let last := ((Node.make ⟨"expr/0"⟩ .localCall).relate .argument target.address).relate .argument ⟨"expr/2"⟩
    let g := ofNodes [replaced, last, target]
    standing [replaced, last, target] = standing [target, last] ∧ g.Alike (ofNodes [target, last]) ∧
      (g.incoming target.address).Perm [(.argument, last.address)] ∧
      g.dangling = [(last.address, .argument, ⟨"expr/2"⟩)] ∧
      [target, last].Perm [last, target] ∧ (ofNodes [target, last]).Alike (ofNodes [last, target]) := by
  intro target replaced last g
  have same : standing [replaced, last, target] = standing [target, last] := by decide
  obtain ⟨refines, -⟩ := ofNodes_lastWrite.1 [replaced, last, target]
  refine ⟨same, ofNodes_lastWrite.2.1 _ _ same, ?_, ?_, .swap _ _ _, ?_⟩
  · exact (refines.incoming target.address).trans (.of_eq (by decide))
  · exact refines.dangling.trans (by decide)
  · exact ofNodes_lastWrite.2.2 _ _ (.swap _ _ _) (by decide)

end Graph

end SyntaxGraph
