import SyntaxGraph.Proofs.Reads
import SyntaxGraph.Proofs.Walks

/-!
# Placeholders and the shorthand closures around them

A placeholder counts for the innermost shorthand closure around it, and the closure takes as many
arguments as the greatest of its placeholders says. While a closure is built its count stands on a
stack of its own, beside the closures that are open, so the nodes that are emitted nest like
brackets: `Nested` says which placeholders among them are still to be counted by a closure that is
open. Of a whole construct none is, since no count is open when it starts.
-/

namespace SyntaxGraph

/-! ## Owners -/

/-- A node lies strictly inside of another. -/
def Node.Encloses (s p : Node) : Prop := p.address.isWithin s.address = true ∧ p.address ≠ s.address

/-- A placeholder belongs to the shorthand closure around it that has the longest address. -/
structure Node.Owns (nodes : List Node) (s p : Node) : Prop where
  placeholder : p ∈ nodes ∧ p.kind = .capturePlaceholder
  encloses : s.Encloses p
  innermost : ∀ other ∈ nodes, other.kind = .shorthandClosure → other.Encloses p →
    other.address.text.length ≤ s.address.text.length

/-- The arity of a shorthand closure is the greatest index of the placeholders that belong to it, and 0
if there are none. -/
def Node.CountsOwned (nodes : List Node) (s : Node) : Prop :=
  ∃ arity, s.property? "arity" = some (.integer arity) ∧
    (∀ p, s.Owns nodes p → ∃ index, p.property? "index" = some (.integer index) ∧ index ≤ arity) ∧
    ((∃ p, s.Owns nodes p ∧ p.property? "index" = some (.integer arity)) ∨
      arity = 0 ∧ ∀ p, ¬ s.Owns nodes p)

/-- The nodes before the last of a tree lie strictly inside of it. -/
theorem Forest.encloses {during : List Node} {last p : Node}
    (tree : Forest [last.address] (during ++ [last])) (member : p ∈ during) : last.Encloses p := by
  obtain ⟨root, same, within⟩ := tree.within p (List.mem_append_left _ member)
  obtain rfl := List.mem_singleton.mp same
  refine ⟨within, fun equal => ?_⟩
  have distinct := tree.distinct
  rw [List.map_append] at distinct
  exact (List.nodup_append.mp distinct).2.2 _ (List.mem_map.mpr ⟨p, member, rfl⟩) _
    (List.mem_singleton_self last.address) equal

/-! ## Nesting -/

/-- A placeholder that no shorthand closure has counted, with its index. -/
abbrev Loose := Node × Int64

/-- The greatest index among a number to start from and those of placeholders. -/
def greatest (loose : List Loose) (start : Int64) : Int64 := (loose.map (·.2)).foldl max start

/-- Nodes in the order in which they are emitted, with the placeholders that no shorthand closure among
them counts. -/
inductive Nested : List Node → List Loose → Prop where
  | empty : Nested [] []
  | plain {n : Node} (placeholder : n.kind ≠ .capturePlaceholder) (shorthand : n.kind ≠ .shorthandClosure) :
      Nested [n] []
  | placeholder {n : Node} {index : Int64} (sort : n.kind = .capturePlaceholder)
      (stated : n.property? "index" = some (.integer index)) (low : 1 ≤ index.toInt) : Nested [n] [(n, index)]
  | append {xs ys ps qs} (first : Nested xs ps) (second : Nested ys qs) : Nested (xs ++ ys) (ps ++ qs)
  /-- A shorthand closure comes after the nodes inside of it and counts their placeholders. -/
  | shorthand {during loose last} (inner : Nested during loose) (sort : last.kind = .shorthandClosure)
      (arity : last.property? "arity" = some (.integer (greatest loose 0)))
      (tree : Forest [last.address] (during ++ [last])) : Nested (during ++ [last]) []

theorem greatest_spec (loose : List Loose) (start : Int64) :
    start ≤ greatest loose start ∧ (∀ p ∈ loose, p.2 ≤ greatest loose start) ∧
      (greatest loose start = start ∨ ∃ p ∈ loose, p.2 = greatest loose start) := by
  induction loose generalizing start with
  | nil => exact ⟨Int64.le_refl _, nofun, .inl rfl⟩
  | cons p rest ih =>
      obtain ⟨above, each, attained⟩ := ih (max start p.2)
      have step : greatest (p :: rest) start = greatest rest (max start p.2) := rfl
      have most : max start p.2 = if start ≤ p.2 then p.2 else start := rfl
      rw [step]
      have both : start ≤ max start p.2 ∧ p.2 ≤ max start p.2 := by
        rw [most]
        split
        · rename_i less
          exact ⟨less, Int64.le_refl _⟩
        · rename_i more
          exact ⟨Int64.le_refl _, (Int64.le_total start p.2).resolve_left more⟩
      refine ⟨Int64.le_trans both.1 above, fun q member => ?_, ?_⟩
      · cases List.mem_cons.mp member with
        | inl same =>
            subst same
            exact Int64.le_trans both.2 above
        | inr later => exact each q later
      · rcases attained with same | ⟨q, member, same⟩
        · rw [same, most]
          split
          · exact .inr ⟨p, List.mem_cons_self, rfl⟩
          · exact .inl rfl
        · exact .inr ⟨q, List.mem_cons_of_mem _ member, same⟩

theorem greatest_append (ps qs : List Loose) (start : Int64) :
    greatest (ps ++ qs) start = greatest qs (greatest ps start) := by
  rw [greatest, List.map_append, List.foldl_append]
  rfl

namespace Nested

variable {nodes all : List Node} {loose : List Loose}

/-- Nodes that bear neither a placeholder nor a shorthand closure. -/
theorem plains (each : ∀ n ∈ nodes, n.kind ≠ .capturePlaceholder ∧ n.kind ≠ .shorthandClosure) :
    Nested nodes [] := by
  induction nodes with
  | nil => exact .empty
  | cons n nodes ih =>
      obtain ⟨placeholder, shorthand⟩ := each n List.mem_cons_self
      exact (Nested.plain placeholder shorthand).append (ih fun m member => each m (List.mem_cons_of_mem _ member))

theorem of_mem_loose (nested : Nested nodes loose) {p : Loose} (member : p ∈ loose) :
    p.1 ∈ nodes ∧ p.1.kind = .capturePlaceholder ∧ p.1.property? "index" = some (.integer p.2) ∧
      1 ≤ p.2.toInt := by
  induction nested with
  | placeholder sort stated low =>
      obtain rfl := List.mem_singleton.mp member
      exact ⟨List.mem_singleton_self _, sort, stated, low⟩
  | append _ _ ih ih' =>
      cases List.mem_append.mp member with
      | inl first =>
          obtain ⟨standing, rest⟩ := ih first
          exact ⟨List.mem_append_left _ standing, rest⟩
      | inr second =>
          obtain ⟨standing, rest⟩ := ih' second
          exact ⟨List.mem_append_right _ standing, rest⟩
  | _ => cases member

/-- Every shorthand closure has the nodes inside of it before it. -/
theorem inversion (nested : Nested nodes loose) {s : Node} (member : s ∈ nodes)
    (sort : s.kind = .shorthandClosure) :
    ∃ during inside, during ++ [s] <:+: nodes ∧ Nested during inside ∧
      s.property? "arity" = some (.integer (greatest inside 0)) ∧ Forest [s.address] (during ++ [s]) := by
  induction nested with
  | empty => cases member
  | plain _ other =>
      obtain rfl := List.mem_singleton.mp member
      exact absurd sort other
  | placeholder other =>
      obtain rfl := List.mem_singleton.mp member
      cases other.symm.trans sort
  | append _ _ ih ih' =>
      cases List.mem_append.mp member with
      | inl first =>
          obtain ⟨during, inside, among, rest⟩ := ih first
          exact ⟨during, inside, among.trans (List.prefix_append _ _).isInfix, rest⟩
      | inr second =>
          obtain ⟨during, inside, among, rest⟩ := ih' second
          exact ⟨during, inside, among.trans (List.suffix_append _ _).isInfix, rest⟩
  | @shorthand during inside last inner _ arity tree ih =>
      cases List.mem_append.mp member with
      | inl deeper =>
          obtain ⟨during', inside', among, rest⟩ := ih deeper
          exact ⟨during', inside', among.trans (List.prefix_append _ _).isInfix, rest⟩
      | inr same =>
          obtain rfl := List.mem_singleton.mp same
          exact ⟨during, inside, List.infix_rfl, inner, arity, tree⟩

/-- Every placeholder is loose or has a shorthand closure around it. -/
theorem sheltered (nested : Nested nodes loose) {p : Node} (member : p ∈ nodes)
    (sort : p.kind = .capturePlaceholder) :
    (∃ index, (p, index) ∈ loose) ∨ ∃ s ∈ nodes, s.kind = .shorthandClosure ∧ s.Encloses p := by
  induction nested with
  | empty => cases member
  | plain other =>
      obtain rfl := List.mem_singleton.mp member
      exact absurd sort other
  | @placeholder n index =>
      obtain rfl := List.mem_singleton.mp member
      exact .inl ⟨index, List.mem_singleton_self _⟩
  | append _ _ ih ih' =>
      cases List.mem_append.mp member with
      | inl first =>
          refine (ih first).imp ?_ ?_
          · exact fun ⟨index, counted⟩ => ⟨index, List.mem_append_left _ counted⟩
          · exact fun ⟨s, standing, rest⟩ => ⟨s, List.mem_append_left _ standing, rest⟩
      | inr second =>
          refine (ih' second).imp ?_ ?_
          · exact fun ⟨index, counted⟩ => ⟨index, List.mem_append_right _ counted⟩
          · exact fun ⟨s, standing, rest⟩ => ⟨s, List.mem_append_right _ standing, rest⟩
  | @shorthand during inside last inner shorthand _ tree _ =>
      cases List.mem_append.mp member with
      | inl deeper =>
          exact .inr ⟨last, List.mem_append_right _ (List.mem_singleton_self _), shorthand, tree.encloses deeper⟩
      | inr same =>
          obtain rfl := List.mem_singleton.mp same
          cases shorthand.symm.trans sort

/-- What lies inside of a shorthand closure was emitted with it. -/
theorem mem_of_isWithin (nested : Nested nodes loose) (reaching : Reaching all)
    (distinct : (all.map (·.address)).Nodup) (among : nodes.Sublist all) {s : Node} (standing : s ∈ nodes)
    (sort : s.kind = .shorthandClosure) {p : Node} (member : p ∈ all)
    (within : p.address.isWithin s.address = true) : p ∈ nodes := by
  obtain ⟨during, inside, block, -, -, tree⟩ := nested.inversion standing sort
  exact block.subset (tree.mem_of_isWithin reaching distinct (List.Subset.trans block.subset among.subset)
    member within)

/-- No shorthand closure is around a loose placeholder. -/
theorem not_encloses (nested : Nested nodes loose) (reaching : Reaching all)
    (distinct : (all.map (·.address)).Nodup) (among : nodes.Sublist all) {p : Loose} (member : p ∈ loose)
    {s : Node} (standing : s ∈ nodes) (sort : s.kind = .shorthandClosure) : ¬ s.Encloses p.1 := by
  induction nested with
  | @placeholder n _ other =>
      obtain rfl := List.mem_singleton.mp standing
      cases other.symm.trans sort
  | @append xs ys ps qs first second ih ih' =>
      have nodup := List.Nodup.of_map _ ((among.map (·.address)).nodup distinct)
      have apart := (List.nodup_append.mp nodup).2.2
      have inXs := (List.sublist_append_left xs ys).trans among
      have inYs := (List.sublist_append_right xs ys).trans among
      -- A closure of one half is not around a placeholder of the other, which was not emitted with it.
      rcases List.mem_append.mp member with inFirst | inSecond <;>
        rcases List.mem_append.mp standing with left | right
      · exact ih inXs inFirst left
      · have here := (first.of_mem_loose inFirst).1
        exact fun inside => apart p.1 here p.1
          (second.mem_of_isWithin reaching distinct inYs right sort (inXs.subset here) inside.1) rfl
      · have here := (second.of_mem_loose inSecond).1
        exact fun inside => apart p.1
          (first.mem_of_isWithin reaching distinct inXs left sort (inYs.subset here) inside.1) p.1 here rfl
      · exact ih' inYs inSecond right
  | _ => cases member

/-- A shorthand closure counts the placeholders that belong to it. -/
theorem countsOwned (nested : Nested all loose) (reaching : Reaching all)
    (distinct : (all.map (·.address)).Nodup) {s : Node} (member : s ∈ all)
    (sort : s.kind = .shorthandClosure) : s.CountsOwned all := by
  obtain ⟨during, inside, among, inner, arity, tree⟩ := nested.inversion member sort
  have parts : during.Sublist all := (List.sublist_append_left _ _).trans among.sublist
  have inBlock : ∀ {p : Node}, p ∈ all → p.address.isWithin s.address = true → p ∈ during ++ [s] :=
    tree.mem_of_isWithin reaching distinct among.subset
  have owns : ∀ p : Node, s.Owns all p ↔ ∃ index, (p, index) ∈ inside := by
    intro p
    constructor
    · rintro ⟨⟨standing, placeholder⟩, encloses, innermost⟩
      have here : p ∈ during := by
        cases List.mem_append.mp (inBlock standing encloses.1) with
        | inl here => exact here
        | inr same => exact absurd (congrArg _ (List.mem_singleton.mp same)) encloses.2
      refine (inner.sheltered here placeholder).resolve_right ?_
      -- A closure further in would have a longer address.
      rintro ⟨other, standing', shorthand, around⟩
      have shorter := innermost other (parts.subset standing') shorthand around
      have deeper := tree.encloses standing'
      rw [← String.length_toList, ← String.length_toList] at shorter
      exact deeper.2 (Address.isWithin_antisymm deeper.1
        (Address.isWithin_of_length_le around.1 encloses.1 shorter))
    · rintro ⟨index, counted⟩
      obtain ⟨here, placeholder, -⟩ := inner.of_mem_loose counted
      refine ⟨⟨parts.subset here, placeholder⟩, tree.encloses here, fun other standing shorthand around => ?_⟩
      by_contra longer
      have within : other.address.isWithin s.address = true := by
        refine Address.isWithin_of_length_le (tree.encloses here).1 around.1 ?_
        rw [String.length_toList, String.length_toList]
        omega
      cases List.mem_append.mp (inBlock standing within) with
      | inl deeper => exact inner.not_encloses reaching distinct parts counted deeper shorthand around
      | inr same =>
          obtain rfl := List.mem_singleton.mp same
          exact longer (Nat.le_refl _)
  obtain ⟨-, bounded, attained⟩ := greatest_spec inside 0
  refine ⟨_, arity, fun p owned => ?_, ?_⟩
  · obtain ⟨index, counted⟩ := (owns p).mp owned
    exact ⟨index, (inner.of_mem_loose counted).2.2.1, bounded _ counted⟩
  · rcases attained with zero | ⟨p, counted, most⟩
    · refine .inr ⟨zero, fun p owned => ?_⟩
      obtain ⟨index, counted⟩ := (owns p).mp owned
      have low := (inner.of_mem_loose counted).2.2.2
      have high := Int64.le_iff_toInt_le.mp (zero ▸ bounded _ counted)
      have none : (0 : Int64).toInt = 0 := rfl
      dsimp only at low high
      omega
    · exact .inl ⟨p.1, (owns p.1).mpr ⟨p.2, counted⟩, most ▸ (inner.of_mem_loose counted).2.2.1⟩

end Nested

/-! ## Visits -/

theorem NodeKind.plain_of_isUnmarked {kind : NodeKind} (unmarked : kind.isUnmarked = true) :
    kind ≠ .capturePlaceholder ∧ kind ≠ .shorthandClosure := by
  constructor <;> rintro rfl <;> cases unmarked

/-- The innermost count takes note of placeholders; without one there are none. -/
def Counts (loose : List Loose) : List Int64 → List Int64 → Prop
  | [], after => loose = [] ∧ after = []
  | start :: rest, after => after = greatest loose start :: rest

theorem Counts.refl (counts : List Int64) : Counts [] counts counts := by
  cases counts with
  | nil => exact ⟨rfl, rfl⟩
  | cons => rfl

theorem Counts.trans {ps qs : List Loose} {xs ys zs : List Int64} (first : Counts ps xs ys)
    (second : Counts qs ys zs) : Counts (ps ++ qs) xs zs := by
  cases xs with
  | nil =>
      obtain ⟨rfl, rfl⟩ := first
      exact second
  | cons start rest =>
      obtain rfl : ys = _ := first
      obtain rfl : zs = _ := second
      rw [Counts, greatest_append]

/-- The nodes of a stretch nest, and the innermost count that is open takes note of the placeholders
that no closure of the stretch counts. -/
theorem Visits.nested {limits : Limits} {given : Bindings} {ps : List Station} {s t : Session}
    (visits : Visits limits given ps s t) : ∃ new loose, t.nodes.toList = s.nodes.toList ++ new ∧
      Nested new loose ∧ Counts loose s.placeholders t.placeholders := by
  have plain : ∀ {node : Node}, node.kind.isUnmarked = true → Nested [node] [] := fun unmarked =>
    (NodeKind.plain_of_isUnmarked unmarked).elim .plain
  induction visits with
  | done s => exact ⟨[], [], (List.append_nil _).symm, .empty, .refl _⟩
  | hand _ _ _ first second =>
      obtain ⟨new, loose, grown, nested, counts⟩ := first
      obtain ⟨more, loose', grown', nested', counts'⟩ := second
      exact ⟨new ++ more, loose ++ loose', by rw [grown', grown, List.append_assoc],
        nested.append nested', counts.trans counts'⟩
  | reorder _ _ ih => exact ih
  | position _ ih => exact ih
  | emit unmarked => exact ⟨_, [], Session.emit_nodes _ _, plain unmarked, .refl _⟩
  | diagnose => exact ⟨[], [], (List.append_nil _).symm, .empty, .refl _⟩
  | bound s names =>
      refine ⟨[], [], by simp, .empty, ?_⟩
      rw [show (s.boundByClosure names).placeholders = s.placeholders by
        unfold Session.boundByClosure
        split <;> rfl]
      exact .refl _
  | symbol unmarked => exact ⟨_, [], Session.emit_nodes _ _, plain unmarked, .refl _⟩
  | size _ _ _ _ ih => split <;> exact ih
  | @bind _ _ _ t bindings reads _ _ ih =>
      obtain ⟨new, loose, grown, nested, counts⟩ := ih
      obtain ⟨nodes, -, placeholders⟩ := t.bindAll_kept reads bindings
      exact ⟨new, loose, by rw [nodes, grown], nested, by rwa [placeholders]⟩
  | logged _ ih => exact ih
  | framed _ ih => exact ih
  | inside _ _ ih => exact ih
  | signed _ _ stated _ =>
      exact ⟨_, [], Session.emit_nodes _ _, plain (Build.signedNumber?_isUnmarked stated), .refl _⟩
  | @binary _ _ _ _ s t node _ _ _ sort ih =>
      obtain ⟨new, loose, grown, nested, counts⟩ := ih
      refine ⟨new ++ [node], loose ++ [], by rw [Session.emit_nodes, grown, List.append_assoc],
        nested.append (.plain ?_ ?_), counts.trans (.refl _)⟩ <;> simp [sort]
  | @placeholder _ _ _ most rest s node index _ low _ counted _ sort stated =>
      refine ⟨[node], [(node, index)], Session.emit_nodes _ _, .placeholder sort stated low, ?_⟩
      rw [counted]
      rfl
  | @closure _ site source pushed s t opened others report node _ closes _ _ here built ih =>
      obtain ⟨new, loose, grown, nested, counts⟩ := ih
      have emitted := t.emit_close_nodes (t.placeholders.drop pushed.length) opened.enclosing others report node
      rw [grown, List.append_assoc, ← List.append_assoc new] at emitted
      have tree := built.forest emitted
      have captured : Nested report.captureNodes [] := .plains fun n member => by
        rw [ClosureReport.kind_of_mem_captureNodes member]
        decide
      have inner : Nested (new ++ report.captureNodes) (loose ++ []) := nested.append captured
      rw [List.append_nil] at inner
      cases closes with
      | function _ unmarked =>
          refine ⟨_, loose ++ [], emitted, inner.append (plain unmarked), ?_⟩
          rw [List.append_nil]
          exact counts
      | shorthand _ _ sort arity =>
          have top : t.placeholders = greatest loose 0 :: s.placeholders := counts
          refine ⟨_, [], emitted, .shorthand inner sort ?_ (here.symm ▸ tree), ?_⟩
          · rw [arity, top]
            rfl
          · rw [show (Session.emit _ node).placeholders = t.placeholders.drop 1 from rfl, top]
            exact .refl _

/-! ## Exposed placeholders -/

namespace Part

/-- A tree that is captured as a whole, so that the placeholders in it count for it. -/
def isShorthand : Part → Bool
  | .expression source =>
    match source.expression with
    | .capture body => (capturedFunction? body).isNone
    | _ => false
  | _ => false

/-- The index of a placeholder, wherever it stands. -/
def placeholder? : Part → Option Int64
  | .expression (.form "&" _ [.integer index]) => some index
  | .pattern (.form "&" _ [.integer index]) => some index
  | _ => none

/-- What is a placeholder as an expression is nothing known as a pattern. -/
theorem shape_of_placeholder? {p : Part} {index : Int64} (found : p.placeholder? = some index) :
    (∃ source, p = .expression source ∧ source.expression = .placeholder index) ∨
      ∃ source tag, p = .pattern source ∧ source.pattern = .unknown tag := by
  unfold placeholder? at found
  split at found
  · obtain rfl := Option.some.inj found
    exact .inl ⟨_, rfl, rfl⟩
  · exact .inr ⟨_, _, rfl, rfl⟩
  · cases found

end Part

/-- From one station another is met outside of every shorthand closure. -/
inductive Station.Exposes : Station → Station → Prop where
  | here (p) : Exposes p p
  | inside {p q r : Station} (plain : p.2.isShorthand = false) (met : q ∈ p.2.stations p.1)
      (exposes : Exposes q r) : Exposes p r

theorem Station.Exposes.reaches {p q : Station} (exposes : p.Exposes q) : p.Reaches q := by
  induction exposes with
  | here p => exact .here p
  | inside _ met _ ih => exact .inside met ih

/-- A placeholder that is exposed is counted further out. -/
theorem Visits.counted_of_exposes {limits : Limits} {given : Bindings} {ps : List Station} {s t : Session}
    (visits : Visits limits given ps s t) {p : Station} (member : p ∈ ps) {site : Address}
    {source : Source} {index : Int64} (exposes : p.Exposes (site, .expression source))
    (shape : source.expression = .placeholder index) : s.placeholders ≠ [] := by
  induction visits generalizing p with
  | hand one _ _ first second =>
      cases List.mem_append.mp member with
      | inl inFirst => exact first inFirst exposes
      | inr inSecond =>
          intro none
          obtain ⟨-, loose, -, -, counts⟩ := one.nested
          rw [none] at counts
          exact second inSecond exposes counts.2
  | reorder _ same ih => exact ih ((same _).mp member) exposes
  | position _ ih => exact ih member exposes
  | symbol =>
      cases List.mem_singleton.mp member
      cases exposes with
      | inside _ met => cases met
  | size _ _ _ _ ih =>
      cases List.mem_append.mp member with
      | inl before => exact ih before exposes
      | inr own =>
          cases List.mem_singleton.mp own
          cases exposes with
          | inside _ met => cases met
  | bind _ _ ih => exact ih member exposes
  | logged _ ih => exact ih member exposes
  | framed _ ih => exact ih member exposes
  | inside unmarked _ ih =>
      cases List.mem_singleton.mp member
      cases exposes with
      | here =>
          rw [Part.isUnmarked, shape] at unmarked
          cases unmarked
      | inside _ met further => exact ih met further
  | signed other =>
      cases List.mem_singleton.mp member
      cases exposes with
      | inside _ met =>
          rw [Part.stations, Part.patternAt, other] at met
          cases met
  | binary other _ _ _ ih =>
      cases List.mem_singleton.mp member
      cases exposes with
      | inside _ met further =>
          rw [Part.stations, Part.patternAt, other] at met
          exact ih met further
  | placeholder _ _ _ counted =>
      rw [counted]
      exact List.cons_ne_nil _ _
  | closure _ closes _ _ _ _ ih =>
      cases List.mem_singleton.mp member
      cases closes with
      | function other =>
          cases exposes with
          | here => cases other.symm.trans shape
          | inside _ met further => exact ih met further
      | shorthand other unnamed =>
          cases exposes with
          | here => cases other.symm.trans shape
          | inside plain _ _ =>
              rw [Part.isShorthand, other] at plain
              dsimp only at plain
              rw [unnamed] at plain
              cases plain
  | _ => cases member

/-! ## Constructs -/

/-- It does not matter in which order the nodes are listed. -/
theorem Node.Owns.congr {nodes more : List Node} (same : ∀ n, n ∈ nodes ↔ n ∈ more) {s p : Node} :
    s.Owns nodes p ↔ s.Owns more p := by
  constructor
  · rintro ⟨⟨standing, sort⟩, encloses, innermost⟩
    exact ⟨⟨(same p).mp standing, sort⟩, encloses, fun other member => innermost other ((same other).mpr member)⟩
  · rintro ⟨⟨standing, sort⟩, encloses, innermost⟩
    exact ⟨⟨(same p).mpr standing, sort⟩, encloses, fun other member => innermost other ((same other).mp member)⟩

theorem Node.CountsOwned.congr {nodes more : List Node} (same : ∀ n, n ∈ nodes ↔ n ∈ more) {s : Node}
    (counts : s.CountsOwned nodes) : s.CountsOwned more := by
  unfold CountsOwned at counts ⊢
  simpa only [Owns.congr same] using counts

namespace Construct

/-- A placeholder is met outside of every shorthand closure. -/
def ExposesPlaceholder (k : Construct) : Prop :=
  ∃ first ∈ k.stations, ∃ q index, first.Exposes q ∧ q.2.placeholder? = some index

/-- A placeholder is met whose index is not among those that are allowed. -/
def MeetsOutOfRange (k : Construct) (limits : Limits) : Prop :=
  ∃ site part index, k.Meets site part ∧ part.placeholder? = some index ∧
    ¬ (1 ≤ index.toInt ∧ index.toInt ≤ limits.maxCaptures)

end Construct

namespace Compiler

/-- In what a construct is compiled to, placeholders stand in shorthand closures, and these count those
that belong to them. What has a placeholder elsewhere, or one that is out of range, is not compiled. -/
theorem construct_placeholders (c : Compiler) (k : Construct) :
    (∀ compiled, c.construct k = .ok compiled →
      (∀ p ∈ compiled.nodes, p.kind = .capturePlaceholder →
        ∃ s ∈ compiled.nodes, s.kind = .shorthandClosure ∧ s.Encloses p) ∧
      ∀ s ∈ compiled.nodes, s.kind = .shorthandClosure → s.CountsOwned compiled.nodes) ∧
    (k.ExposesPlaceholder ∨ k.MeetsOutOfRange c.limits → ∃ fault, c.construct k = .error fault) := by
  constructor
  · intro compiled h
    obtain ⟨t, success, rfl⟩ := construct_eq_ok h
    obtain ⟨gain, course⟩ := construct_built success
    obtain ⟨new, loose, grown, nested, counts⟩ := (construct_visits success).nested
    have all : gain.nodes = new := List.append_cancel_left (course.nodes_eq.symm.trans grown)
    have standing : ∀ n, n ∈ new ↔ n ∈ (finish k.root t).nodes := by
      intro n
      have nodes : t.nodes.toList = new := grown
      rw [← nodes]
      exact (sortNodes_perm _).mem_iff.symm
    constructor
    · intro p member sort
      obtain ⟨s, here, shorthand, encloses⟩ :=
        (nested.sheltered ((standing p).mpr member) sort).resolve_left fun ⟨index, counted⟩ => by
          rw [show loose = [] from counts.1] at counted
          cases counted
      exact ⟨s, (standing s).mp here, shorthand, encloses⟩
    · intro s member sort
      exact (nested.countsOwned (all ▸ course.reaching) (all ▸ course.forest.distinct)
        ((standing s).mpr member) sort).congr standing
  · intro wrong
    cases answer : c.construct k with
    | error fault => exact ⟨fault, rfl⟩
    | ok compiled =>
        obtain ⟨t, success, -⟩ := construct_eq_ok answer
        have visits := construct_visits success
        obtain ⟨new, -, ⟨leaves, -⟩⟩ := visits.accounts
        exfalso
        rcases wrong with ⟨first, member, ⟨site, part⟩, index, exposes, found⟩ |
          ⟨site, part, index, ⟨first, member, reaches⟩, found, outside⟩
        · obtain ⟨source, rfl, shape⟩ | ⟨source, tag, rfl, shape⟩ := Part.shape_of_placeholder? found
          · exact visits.counted_of_exposes member exposes shape rfl
          · exact (leaves first member _ exposes.reaches).1 tag shape
        · obtain ⟨source, rfl, shape⟩ | ⟨source, tag, rfl, shape⟩ := Part.shape_of_placeholder? found
          · exact outside (leaves first member _ reaches index shape)
          · exact (leaves first member _ reaches).1 tag shape

/-- `&{&1, fn -> &3 end, &(&2)}`, where one shorthand closure stands in another. -/
def capturedTwice : Construct :=
  .expression ⟨"expr/0"⟩ (.unary "&" (.tuple [.unary "&" (.integer 1),
    .closure [.clause [] (.unary "&" (.integer 3))], .unary "&" (.unary "&" (.integer 2))]))

/-- `fn -> &1 end`, where no shorthand closure is around. -/
def uncaptured : Construct :=
  .expression ⟨"expr/0"⟩ (.closure [.clause [] (.unary "&" (.integer 1))])

theorem construct_placeholders_capturedTwice :
    ∃ compiled, Compiler.construct ⟨.standard, []⟩ capturedTwice = .ok compiled ∧
      (∃ s ∈ compiled.nodes, s.kind = .shorthandClosure ∧ s.property? "arity" = some (.integer 3) ∧
        s.CountsOwned compiled.nodes) ∧
      ∃ fault, Compiler.construct ⟨.standard, []⟩ uncaptured = .error fault := by
  have succeeds : (Compiler.construct ⟨.standard, []⟩ capturedTwice).isOk = true := by decide +kernel
  have exposes : uncaptured.ExposesPlaceholder :=
    ⟨_, List.mem_singleton_self _, _, 1, .inside rfl (.head _) (.here _), rfl⟩
  cases success : Compiler.construct ⟨.standard, []⟩ capturedTwice with
  | error fault => exact nomatch success ▸ succeeds
  | ok compiled =>
      obtain ⟨s, among, sort, arity⟩ : ∃ s ∈ Compiler.emitted ⟨.standard, []⟩ capturedTwice,
          s.kind = .shorthandClosure ∧ s.property? "arity" = some (.integer 3) := by decide +kernel
      have member := (mem_emitted success).mp among
      have counts := ((construct_placeholders _ _).1 compiled success).2 s member sort
      exact ⟨compiled, rfl, ⟨s, member, sort, arity, counts⟩, (construct_placeholders _ _).2 (.inl exposes)⟩

end Compiler

end SyntaxGraph
