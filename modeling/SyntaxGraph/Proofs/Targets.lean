import SyntaxGraph.Proofs.Bytes
import SyntaxGraph.Proofs.Indexes
import SyntaxGraph.Proofs.Tally

/-!
# What a node lists after some calls

The relations of a node are built up by calls: one adds a target in a role, another only notes that
a role is there. A positional role lists its targets as they came. Every other role lists a set,
and a new target finds its place by halving. That is right only where the list rises, so rising
lists and the place that the search returns are looked at first; insertion then splits a rising
list in two and the list it leaves rises again.

`Records` says what a node holds after a list of calls, for all roles at once. Each call keeps it,
and a run is a fold over calls.
-/

namespace SyntaxGraph

namespace Relation

/-! ## Halving -/

/-- A place parts a range: nothing up to it is beyond what is looked for, except perhaps the first place
of the range, and everything behind it is. -/
structure Parts (beyond : Nat → Bool) (base size place : Nat) : Prop where
  low : base ≤ place
  high : place < base + size
  upTo : ∀ i, base < i → i ≤ place → beyond i = false
  behind : ∀ i, place < i → i < base + size → beyond i = true

/-- If all that stands behind a place beyond is beyond too, the search finds the place that parts the
range. -/
theorem narrow_parts {beyond : Nat → Bool} {size base : Nat} (filled : 0 < size)
    (rises : ∀ i j, i ≤ j → j < base + size → beyond i = true → beyond j = true) :
    Parts beyond base size (narrow beyond size base) := by
  induction size, base using narrow.induct beyond with
  | case1 size base single =>
      rw [narrow, if_pos single]
      exact ⟨Nat.le_refl _, by omega, fun i after upTo => by omega, fun i after before => by omega⟩
  | case2 size base several middle ih =>
      have inside : base < middle ∧ middle < base + size := by omega
      rw [narrow, if_neg several]
      change Parts beyond base size (narrow beyond (size - size / 2) (if beyond middle then base else middle))
      cases upper : beyond middle with
      | true =>
          rw [dif_pos upper] at ih
          obtain ⟨low, high, upTo, behind⟩ := ih (by omega) fun i j le within => rises i j le (by omega)
          rw [if_pos rfl]
          refine ⟨low, by omega, upTo, fun i after within => ?_⟩
          -- What was cut off starts at the middle or one place behind it.
          rcases Nat.lt_or_ge i (base + (size - size / 2)) with kept | cut
          · exact behind i after kept
          · exact rises middle i (by omega) within upper
      | false =>
          rw [dif_neg (by simp [upper])] at ih
          obtain ⟨low, high, upTo, behind⟩ := ih (by omega) fun i j le within => rises i j le (by omega)
          rw [if_neg (by decide)]
          refine ⟨by omega, by omega, fun i after before => ?_,
            fun i after within => behind i after (by omega)⟩
          rcases Nat.lt_or_ge middle i with kept | cut
          · exact upTo i kept before
          · by_contra greater
            rw [Bool.not_eq_false] at greater
            rw [rises i middle cut inside.2 greater] at upper
            cases upper

/-! ## Rising lists -/

/-- Targets in their order, each once. -/
def Rising (targets : List Address) : Prop := targets.Pairwise fun a b => compare a b = .lt

/-- Whether a target stands at a place that is greater than the one looked for. -/
def isBeyond (target : Address) (targets : List Address) (i : Nat) : Bool :=
  (targets[i]?.map fun other => compare other target == .gt).getD false

variable {target : Address} {targets : List Address}

theorem isBeyond_eq {i : Nat} (within : i < targets.length) :
    isBeyond target targets i = (compare targets[i] target == .gt) := by
  rw [isBeyond, List.getElem?_eq_getElem within]
  rfl

theorem Rising.getElem_lt (rising : Rising targets) {i j : Nat} (less : i < j) (within : j < targets.length) :
    compare targets[i] targets[j] = .lt :=
  List.pairwise_iff_getElem.mp rising i j (Nat.lt_trans less within) within less

/-- In a rising list everything behind a greater target is greater. -/
theorem Rising.isBeyond_mono (rising : Rising targets) {i j : Nat} (le : i ≤ j) (within : j < targets.length)
    (beyond : isBeyond target targets i = true) : isBeyond target targets j = true := by
  rcases Nat.eq_or_lt_of_le le with rfl | less
  · exact beyond
  · rw [isBeyond_eq (Nat.lt_trans less within), beq_iff_eq] at beyond
    rw [isBeyond_eq within, beq_iff_eq]
    exact Std.OrientedCmp.gt_of_lt
      (Std.TransCmp.lt_trans (Std.OrientedCmp.lt_of_gt beyond) (rising.getElem_lt less within))

theorem insertIdx_eq {α : Type} (x : α) {xs : List α} {i : Nat} (within : i ≤ xs.length) :
    xs.insertIdx i x = xs.take i ++ x :: xs.drop i := by
  induction xs generalizing i with
  | nil =>
      obtain rfl := Nat.le_zero.mp within
      rfl
  | cons y ys ih =>
      cases i with
      | zero => rfl
      | succ i => rw [List.insertIdx_succ_cons, ih (Nat.le_of_succ_le_succ within)]; rfl

/-- A place for a target: all before it are less, and it and all behind it are greater. -/
structure Fits (target : Address) (targets : List Address) (place : Nat) : Prop where
  within : place ≤ targets.length
  before : ∀ i (h : i < targets.length), i < place → compare targets[i] target = .lt
  behind : ∀ i (h : i < targets.length), place ≤ i → compare target targets[i] = .lt

/-- The place that the search finds for a target. -/
def place (target : Address) (targets : List Address) : Nat :=
  narrow (isBeyond target targets) targets.length 0

theorem insertSorted_eq (target : Address) (targets : List Address) : insertSorted target targets =
    match targets[place target targets]? with
    | none => [target]
    | some other => match compare other target with
      | .eq => targets
      | .lt => targets.insertIdx (place target targets + 1) target
      | .gt => targets.insertIdx (place target targets) target := rfl

/-- Insertion leaves a rising list that holds the target as it is, and otherwise puts the target
where it fits. -/
theorem insertSorted_cases (target : Address) (rising : Rising targets) :
    target ∈ targets ∧ insertSorted target targets = targets ∨
      ∃ i, Fits target targets i ∧ insertSorted target targets = targets.insertIdx i target := by
  rcases Nat.eq_zero_or_pos targets.length with zero | positive
  · obtain rfl := List.eq_nil_of_length_eq_zero zero
    exact .inr ⟨0, ⟨Nat.le_refl _, nofun, nofun⟩, by simp [insertSorted]⟩
  obtain ⟨-, within, upTo, behind⟩ :
      Parts (isBeyond target targets) 0 targets.length (place target targets) :=
    narrow_parts positive fun i j le within => rising.isBeyond_mono le (by omega)
  rw [Nat.zero_add] at within
  have greater : ∀ i (h : i < targets.length), place target targets < i →
      compare target targets[i] = .lt := by
    intro i h after
    have beyond := behind i after (by omega)
    rw [isBeyond_eq h, beq_iff_eq] at beyond
    exact Std.OrientedCmp.lt_of_gt beyond
  rw [insertSorted_eq, List.getElem?_eq_getElem within]
  dsimp only
  cases order : compare targets[place target targets] target with
  | eq =>
      refine .inl ⟨?_, rfl⟩
      rw [← Std.LawfulEqOrd.eq_of_compare order]
      exact List.getElem_mem within
  | lt =>
      refine .inr ⟨place target targets + 1, ⟨within, fun i h before => ?_, greater⟩, rfl⟩
      rcases Nat.lt_or_eq_of_le (Nat.le_of_lt_succ before) with less | rfl
      · exact Std.TransCmp.lt_trans (rising.getElem_lt less within) order
      · exact order
  | gt =>
      -- Only the first place of all may be beyond.
      have first : place target targets = 0 := by
        by_contra later
        have beyond := upTo _ (Nat.pos_of_ne_zero later) (Nat.le_refl _)
        rw [isBeyond_eq within, order] at beyond
        cases beyond
      refine .inr ⟨place target targets,
        ⟨Nat.le_of_lt within, fun i h before => by omega, fun i h after => ?_⟩, rfl⟩
      rcases Nat.eq_or_lt_of_le after with rfl | less
      · exact Std.OrientedCmp.lt_of_gt order
      · exact greater i h less

theorem insertSorted_rising (target : Address) (rising : Rising targets) :
    Rising (insertSorted target targets) := by
  rcases insertSorted_cases target rising with ⟨-, same⟩ | ⟨i, fits, inserted⟩
  · rw [same]
    exact rising
  rw [inserted, insertIdx_eq target fits.within]
  have less : ∀ a ∈ targets.take i, compare a target = .lt := by
    intro a member
    obtain ⟨j, bound, rfl⟩ := List.mem_take_iff_getElem.mp member
    exact fits.before j (by omega) (by omega)
  have greater : ∀ b ∈ targets.drop i, compare target b = .lt := by
    intro b member
    obtain ⟨j, bound, rfl⟩ := List.mem_drop_iff_getElem.mp member
    exact fits.behind (i + j) (by omega) (by omega)
  refine List.pairwise_append.mpr ⟨rising.take, List.pairwise_cons.mpr ⟨greater, rising.drop⟩, ?_⟩
  intro a before b member
  rcases List.mem_cons.mp member with rfl | behind
  · exact less a before
  · exact Std.TransCmp.lt_trans (less a before) (greater b behind)

theorem mem_insertSorted_iff {x : Address} (target : Address) (rising : Rising targets) :
    x ∈ insertSorted target targets ↔ x ∈ targets ∨ x = target := by
  rcases insertSorted_cases target rising with ⟨stands, same⟩ | ⟨i, fits, inserted⟩
  · rw [same]
    exact ⟨.inl, fun either => either.elim id fun equal => equal ▸ stands⟩
  · rw [inserted, List.mem_insertIdx fits.within, or_comm]

theorem Rising.nodup (rising : Rising targets) : targets.Nodup := by
  refine rising.imp ?_
  rintro a b less rfl
  simp at less

/-- A rising list is determined by its members. -/
theorem Rising.eq_of_mem_iff {others : List Address} (rising : Rising targets) (again : Rising others)
    (same : ∀ a, a ∈ targets ↔ a ∈ others) : targets = others := by
  have perm := (List.perm_ext_iff_of_nodup rising.nodup again.nodup).mpr same
  exact OrderedMap.eq_of_perm perm rising again

theorem rising_iff_bytes : Rising targets ↔ targets.Pairwise fun a b => a.bytes < b.bytes := by
  simp only [Rising, Address.compare_eq_lt_iff]

/-! ## One relation -/

/-- A relation lists the given targets in the way of its role: as they came, or each once and rising. -/
structure Lists (r : Relation) (role : Role) (given : List Address) : Prop where
  ordered : r.ordered = role.isOrdered
  asGiven : role.isOrdered = true → r.targets = given
  rising : role.isOrdered = false → Rising r.targets
  members : ∀ a, a ∈ r.targets ↔ a ∈ given

namespace Lists

variable {r : Relation} {role : Role} {given : List Address}

theorem empty (role : Role) : (Relation.empty role.isOrdered).Lists role [] :=
  ⟨rfl, fun _ => rfl, fun _ => .nil, fun _ => .rfl⟩

/-- A target that is added is given last. -/
theorem push (lists : r.Lists role given) (target : Address) :
    (r.push target).Lists role (given ++ [target]) := by
  have kept : (r.push target).ordered = role.isOrdered := (r.push_ordered target).trans lists.ordered
  cases positional : role.isOrdered with
  | true =>
      have targets : (r.push target).targets = given ++ [target] := by
        rw [push_targets_of_ordered (lists.ordered.trans positional), lists.asGiven positional]
      refine ⟨kept, fun _ => targets, fun set => ?_, fun a => by rw [targets]⟩
      rw [positional] at set
      cases set
  | false =>
      have rising := lists.rising positional
      have targets : (r.push target).targets = insertSorted target r.targets := by
        rw [Relation.push, if_neg (by simp [lists.ordered, positional])]
      refine ⟨kept, fun ordered => ?_, fun _ => ?_, fun a => ?_⟩
      · rw [positional] at ordered
        cases ordered
      · rw [targets]
        exact insertSorted_rising target rising
      · rw [targets, mem_insertSorted_iff target rising, lists.members, List.mem_append,
          List.mem_singleton]

/-- In a role that holds a set, only the set of what was given counts. -/
theorem eq_of_mem_iff {r' : Relation} {given' : List Address} (lists : r.Lists role given)
    (again : r'.Lists role given') (set : role.isOrdered = false) (same : ∀ a, a ∈ given ↔ a ∈ given') :
    r = r' := by
  have targets : r.targets = r'.targets := by
    apply (lists.rising set).eq_of_mem_iff (again.rising set)
    intro a
    rw [lists.members, again.members, same]
  obtain ⟨listed, ordered⟩ := r
  obtain ⟨listed', ordered'⟩ := r'
  cases targets
  cases lists.ordered.trans again.ordered.symm
  rfl

end Lists

end Relation

/-! ## Runs of calls -/

/-- A call on the relations of a node. -/
inductive Linking where
  /-- Add a target in a role. -/
  | relate (role : Role) (target : Address)
  /-- Note that a role is there. -/
  | declare (role : Role)
  deriving DecidableEq

namespace Linking

def role : Linking → Role
  | .relate role _ => role
  | .declare role => role

/-- The target that a call adds in a role. -/
def targetIn (role : Role) : Linking → Option Address
  | .relate other target => if other = role then some target else none
  | .declare _ => none

def roles (calls : List Linking) : List Role := calls.map Linking.role

/-- The targets that calls add in a role, call by call. -/
def targetsIn (role : Role) (calls : List Linking) : List Address := calls.filterMap (targetIn role)

theorem targetsIn_relate (role : Role) (target : Address) (calls : List Linking) :
    targetsIn role (calls ++ [.relate role target]) = targetsIn role calls ++ [target] := by
  simp [targetsIn, targetIn]

theorem targetsIn_other {role : Role} {call : Linking} (none : targetIn role call = none)
    (calls : List Linking) : targetsIn role (calls ++ [call]) = targetsIn role calls := by
  simp [targetsIn, none]

end Linking

namespace Node

def link (n : Node) : Linking → Node
  | .relate role target => n.relate role target
  | .declare role => n.declare role

/-- What calls make of a node, one after the other. -/
def linkAll (n : Node) (calls : List Linking) : Node := calls.foldl link n

@[simp] theorem linkAll_nil (n : Node) : n.linkAll [] = n := rfl

@[simp] theorem linkAll_cons (n : Node) (call : Linking) (calls : List Linking) :
    n.linkAll (call :: calls) = (n.link call).linkAll calls := rfl

/-- A node holds what calls have left in a node without relations: the roles that they mention, each
with the targets that they add in it. -/
structure Records (n : Node) (calls : List Linking) : Prop where
  present : ∀ role, (n.relations.get? role).isSome ↔ role ∈ Linking.roles calls
  lists : ∀ role, (n.relation role).Lists role (Linking.targetsIn role calls)

namespace Records

variable {n : Node} {calls : List Linking}

theorem make (site : Address) (kind : NodeKind) : (Node.make site kind).Records [] :=
  ⟨fun _ => ⟨nofun, nofun⟩, .empty⟩

theorem insert_present (records : n.Records calls) (call : Linking) (relation : Relation) (role : Role) :
    ((n.relations.insert call.role relation).get? role).isSome ↔
      role ∈ Linking.roles (calls ++ [call]) := by
  rw [OrderedMap.get?_insert, Linking.roles, List.map_append, List.mem_append, List.map_singleton,
    List.mem_singleton]
  split
  · rename_i equal
    exact iff_of_true rfl (.inr (Std.LawfulEqOrd.eq_of_compare equal))
  · rename_i differs
    have other : role ≠ call.role := fun same => differs (same ▸ Std.ReflCmp.compare_self)
    rw [records.present, or_iff_left other]
    rfl

/-- Every call keeps the record. -/
theorem link (records : n.Records calls) (call : Linking) : (n.link call).Records (calls ++ [call]) := by
  cases call with
  | relate role target =>
      refine ⟨records.insert_present (.relate role target) _, fun other => ?_⟩
      by_cases same : role = other
      · subst same
        rw [Node.link, relation_relate_self, Linking.targetsIn_relate]
        exact (records.lists role).push target
      · have none : Linking.targetIn other (.relate role target) = none := if_neg same
        rw [Node.link, n.relation_relate_of_ne (Ne.symm same), Linking.targetsIn_other none]
        exact records.lists other
  | declare role =>
      refine ⟨records.insert_present (.declare role) _, fun other => ?_⟩
      rw [Node.link, relation_declare, Linking.targetsIn_other rfl]
      exact records.lists other

theorem linkAll (records : n.Records calls) (more : List Linking) :
    (n.linkAll more).Records (calls ++ more) := by
  induction more generalizing n calls with
  | nil => simpa using records
  | cons call more ih => simpa using ih (records.link call)

theorem get?_eq_none (records : n.Records calls) {role : Role}
    (absent : role ∉ Linking.roles calls) : n.relations.get? role = none := by
  rw [← records.present] at absent
  exact Option.not_isSome_iff_eq_none.mp absent

theorem get?_eq_some (records : n.Records calls) {role : Role}
    (mentioned : role ∈ Linking.roles calls) : n.relations.get? role = some (n.relation role) := by
  obtain ⟨r, found⟩ := Option.isSome_iff_exists.mp ((records.present role).mpr mentioned)
  rw [relation, found]
  rfl

end Records

/-! ## Main result -/

/-- After any calls on a new node, exactly the roles that they mention are there. A positional role
lists its targets in the order of the calls, with every repetition. Any other role lists the set of its
targets, rising by their bytes, so that other calls which mention it and add the same targets leave it
the same. -/
theorem linkAll_listsTargets (site : Address) (kind : NodeKind) (calls : List Linking) (role : Role) :
    (role ∉ Linking.roles calls → ((make site kind).linkAll calls).relations.get? role = none) ∧
      (role ∈ Linking.roles calls → ∃ r, ((make site kind).linkAll calls).relations.get? role = some r ∧
        r.ordered = role.isOrdered ∧
        (role.isOrdered = true → r.targets = Linking.targetsIn role calls) ∧
        (role.isOrdered = false → r.targets.Pairwise (fun a b => a.bytes < b.bytes) ∧
          ∀ a, a ∈ r.targets ↔ a ∈ Linking.targetsIn role calls)) ∧
      ∀ others : List Linking, role.isOrdered = false →
        (role ∈ Linking.roles calls ↔ role ∈ Linking.roles others) →
        (∀ a, a ∈ Linking.targetsIn role calls ↔ a ∈ Linking.targetsIn role others) →
        ((make site kind).linkAll calls).relations.get? role =
          ((make site kind).linkAll others).relations.get? role := by
  have records : ∀ calls, ((make site kind).linkAll calls).Records calls := fun calls =>
    (Records.make site kind).linkAll calls
  refine ⟨(records calls).get?_eq_none, fun mentioned => ?_, fun others set roles targets => ?_⟩
  · have lists := (records calls).lists role
    exact ⟨_, (records calls).get?_eq_some mentioned, lists.ordered, lists.asGiven,
      fun set => ⟨Relation.rising_iff_bytes.mp (lists.rising set), lists.members⟩⟩
  · by_cases mentioned : role ∈ Linking.roles calls
    · rw [(records calls).get?_eq_some mentioned, (records others).get?_eq_some (roles.mp mentioned),
        ((records calls).lists role).eq_of_mem_iff ((records others).lists role) set targets]
    · rw [(records calls).get?_eq_none mentioned,
        (records others).get?_eq_none fun again => mentioned (roles.mpr again)]

/-- Calls on several roles by turns, with repetitions. -/
def turns : List Linking :=
  [.relate .guard ⟨"expr/1/b"⟩, .declare .element, .relate .argument ⟨"expr/1/b"⟩,
    .relate .guard ⟨"expr/1/a"⟩, .relate .argument ⟨"expr/1/a"⟩, .relate .guard ⟨"expr/1/b"⟩,
    .relate .argument ⟨"expr/1/b"⟩]

theorem linkAll_listsTargets_turns :
    Role.body ∉ Linking.roles turns ∧
      ((make ⟨"expr/1"⟩ .block).linkAll turns).relations.get? .body = none ∧
      ((make ⟨"expr/1"⟩ .block).linkAll turns).relations.get? .element = some ⟨[], true⟩ ∧
      ((make ⟨"expr/1"⟩ .block).linkAll turns).relations.get? .argument =
        some ⟨[⟨"expr/1/b"⟩, ⟨"expr/1/a"⟩, ⟨"expr/1/b"⟩], true⟩ ∧
      ((make ⟨"expr/1"⟩ .block).linkAll turns).relations.get? .guard =
        some ⟨[⟨"expr/1/a"⟩, ⟨"expr/1/b"⟩], false⟩ ∧
      ((make ⟨"expr/1"⟩ .block).linkAll turns).relations.get? .guard =
        ((make ⟨"expr/1"⟩ .block).linkAll turns.reverse).relations.get? .guard := by
  have after := linkAll_listsTargets ⟨"expr/1"⟩ .block turns
  refine ⟨by decide, (after .body).1 (by decide), ?_, ?_, ?_, (after .guard).2.2 _ rfl (by decide) ?_⟩
  · obtain ⟨⟨targets, ordered⟩, found, rfl, asGiven, -⟩ := (after .element).2.1 (by decide)
    obtain rfl := asGiven rfl
    exact found
  · obtain ⟨⟨targets, ordered⟩, found, rfl, asGiven, -⟩ := (after .argument).2.1 (by decide)
    obtain rfl := asGiven rfl
    exact found
  · obtain ⟨⟨targets, ordered⟩, found, rfl, -, asSet⟩ := (after .guard).2.1 (by decide)
    obtain ⟨rising, members⟩ := asSet rfl
    have sorted : Relation.Rising [⟨"expr/1/a"⟩, ⟨"expr/1/b"⟩] :=
      List.pairwise_pair.mpr (by decide +kernel)
    have given : Linking.targetsIn .guard turns = [⟨"expr/1/b"⟩, ⟨"expr/1/a"⟩, ⟨"expr/1/b"⟩] := rfl
    obtain rfl := (Relation.rising_iff_bytes.mpr rising).eq_of_mem_iff sorted fun a => by
      rw [members, given]
      grind
    exact found
  · intro a
    rw [Linking.targetsIn, Linking.targetsIn, List.filterMap_reverse, List.mem_reverse]

end Node

end SyntaxGraph
