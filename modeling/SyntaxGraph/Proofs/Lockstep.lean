import SyntaxGraph.Proofs.Segments
import SyntaxGraph.Proofs.Simulation

/-!
# Literals and patterns in lockstep

In any simulation, two levels that build alike parts alike build alike literals and patterns
alike. The lemmas follow the builders one by one: each names the parts that are built, in
order, and the properties of the node they belong to.
-/

namespace SyntaxGraph

/-- Two levels that build alike trees alike. -/
structure Level.Related (K : Simulation) (level level' : Level) : Prop where
  room : K.room level.room level'.room
  expression : ∀ {stack world site site' s s'}, K.within stack site → K.address site site' →
    K.like.expression site s s' →
    K.Relates stack world (fun v _ _ => K.part v site site') (level.expression site s)
      (level'.expression site' s')
  pattern : ∀ {stack world site site' s s' bindings bindings'}, K.within stack site →
    K.address site site' → K.like.pattern site s s' →
    List.Forall₂ (K.binding world) bindings bindings' →
    K.Relates stack world
      (fun v found found' => K.part v site site' ∧ List.Forall₂ (K.binding v) found found')
      (level.pattern site s bindings) (level'.pattern site' s' bindings')

namespace Simulation

open Build

variable {K : Simulation} {stack : K.Stack} {world : K.World} {level level' : Level}
  {site site' : Address} {n n' : Node} {role : Role}

/-! ## Parts in a single role -/

section Children

variable (related : level.Related K level')
include related

theorem relates_child {s s' : Source} (near : K.within stack site)
    (h : K.NodeAt world site site' n n') (alike : K.like.expression (site.child role.label) s s') :
    K.Relates stack world (fun v => K.NodeAt v site site') (level.child n role s)
      (level'.child n' role s') := by
  obtain ⟨node, rfl, rfl⟩ := h
  refine relates_bind (related.expression (K.within_child _ near)
    (K.address_child _ (K.node_address node)) alike) fun later _ _ grown part => ?_
  exact relates_pure (nodeAt_relate (nodeAt_mono grown ⟨node, rfl, rfl⟩) role part)

theorem relates_optionalChild {s s' : Option Source} (near : K.within stack site)
    (h : K.NodeAt world site site' n n') (alike : Likeness.Optional K.like.expression site role s s') :
    K.Relates stack world (fun v => K.NodeAt v site site') (optionalChild level n role s)
      (optionalChild level' n' role s') := by
  cases alike with
  | none => exact relates_pure h
  | some alike => exact relates_child related near h alike

theorem relates_patternChild {s s' : Source} {bindings bindings' : Bindings}
    (near : K.within stack site) (h : K.NodeAt world site site' n n')
    (alike : K.like.pattern (site.child role.label) s s')
    (bound : List.Forall₂ (K.binding world) bindings bindings') :
    K.Relates stack world
      (fun v x y => K.NodeAt v site site' x.1 y.1 ∧ List.Forall₂ (K.binding v) x.2 y.2)
      (patternChild level n role s bindings) (patternChild level' n' role s' bindings') := by
  obtain ⟨node, rfl, rfl⟩ := h
  refine relates_bind (related.pattern (K.within_child _ near)
    (K.address_child _ (K.node_address node)) alike bound) fun later _ _ grown found => ?_
  exact relates_pure ⟨nodeAt_relate (nodeAt_mono grown ⟨node, rfl, rfl⟩) role found.1, found.2⟩

theorem relates_bounds {parts parts' : List (Role × Option Source)} (near : K.within stack site)
    (h : K.NodeAt world site site' n n')
    (alike : List.Forall₂ (fun part part' => part.1 = part'.1 ∧
      Likeness.Optional K.like.expression site part.1 part.2 part'.2) parts parts') :
    K.Relates stack world (fun v => K.NodeAt v site site') (bounds level n parts)
      (bounds level' n' parts') := by
  induction alike generalizing world n n' with
  | nil => exact relates_pure h
  | @cons part part' rest rest' first _ ih =>
      obtain ⟨role, bound⟩ := part
      obtain ⟨role', bound'⟩ := part'
      obtain ⟨same, first⟩ := first
      obtain rfl : role = role' := same
      cases first with
      | none => exact ih h
      | some first =>
          exact relates_bind (relates_child related near h first) fun later n n' _ grown => ih grown

end Children

/-! ## Entries and elements -/

section Collections

/-- The parts of a collection are numbered and counted. -/
theorem relates_collection {alike : Address → Source → Source → Prop}
    {build build' : Address → Source → Build Unit} {items items' : List Source} (what : String)
    (near : K.within stack site) (h : K.NodeAt world site site' n n')
    (step : ∀ {world site site' s s'}, K.within stack site → K.address site site' → alike site s s' →
      K.Relates stack world (fun v _ _ => K.part v site site') (build site s) (build' site' s'))
    (each : Each alike site role 0 items items') :
    K.Relates stack world (fun v => K.NodeAt v site site')
      (do
        checkFanout n.address what items.length
        let addresses ← eachPart n.address role build items
        return (n.declare role).relateAll role addresses |>.set "size" items.length)
      (do
        checkFanout n'.address what items'.length
        let addresses ← eachPart n'.address role build' items'
        return (n'.declare role).relateAll role addresses |>.set "size" items'.length) := by
  have at' := nodeAt_address h
  obtain ⟨node, rfl, rfl⟩ := h
  rw [← each.length_eq]
  refine relates_bind (K.relates_fanout _ _ at') fun v _ _ grown _ => ?_
  refine relates_bind (relates_eachPart near at' (fun _ _ _ _ _ _ near at' alike =>
    step near at' alike) each) fun u _ _ further parts => ?_
  exact relates_pure (nodeAt_set (nodeAt_relateAll (nodeAt_declare
    (nodeAt_mono (K.grows_trans grown further) ⟨node, rfl, rfl⟩) _) _ parts) _ (figure_refl _) (by decide))

variable (related : level.Related K level')
include related

theorem relates_elements {items items' : List Source} (near : K.within stack site)
    (h : K.NodeAt world site site' n n') (alike : Each K.like.expression site .element 0 items items') :
    K.Relates stack world (fun v => K.NodeAt v site site') (elements level n items)
      (elements level' n' items') :=
  relates_collection "element" near h
    (fun near at' alike => related.expression near at' alike) alike

theorem relates_entry {s s' : Source} (near : K.within stack site) (at' : K.address site site')
    (alike : K.like.Entry K.like.expression site s s') :
    K.Relates stack world (fun v _ _ => K.part v site site') (entry level site s)
      (entry level' site' s') := by
  obtain ⟨position, tag, parts⟩ := alike
  unfold entry
  cases found : s.mapEntry? with
  | none =>
      rw [found] at parts
      generalize s'.mapEntry? = other at parts
      cases parts
      dsimp only
      rw [tag found]
      exact relates_unknown near at' _ position
  | some pair =>
      rw [found] at parts
      generalize s'.mapEntry? = other at parts
      cases parts with
      | some alike =>
          refine relates_bind (related.expression (K.within_child _ near)
            (K.address_child _ at') alike.1) fun v _ _ grown key => ?_
          refine relates_bind (related.expression (K.within_child _ near)
            (K.address_child _ at') alike.2) fun u _ _ further value => ?_
          exact relates_emit near (nodeAt_withPosition (nodeAt_relate (nodeAt_relate
            (nodeAt_withTags (nodeAt_make at' (by decide)) _) _ (K.part_mono further key)) _ value)
            (.inl position))

theorem relates_entries {items items' : List Source} (near : K.within stack site)
    (h : K.NodeAt world site site' n n')
    (alike : Each (K.like.Entry K.like.expression) site .entry 0 items items') :
    K.Relates stack world (fun v => K.NodeAt v site site') (entries level n items)
      (entries level' n' items') :=
  relates_collection "entry" near h (fun near at' alike => relates_entry related near at' alike) alike

theorem relates_mapBody {items items' : List Source} (near : K.within stack site)
    (h : K.NodeAt world site site' n n') (alike : K.like.MapBody site items items') :
    K.Relates stack world (fun v => K.NodeAt v site site') (mapBody level n items)
      (mapBody level' n' items') := by
  obtain ⟨update, plain⟩ := alike
  rw [mapBody_eq, mapBody_eq]
  cases found : mapUpdate? items with
  | none =>
      rw [found] at update
      generalize mapUpdate? items' = other at update
      cases update
      exact relates_entries related near h (plain found)
  | some parts =>
      rw [found] at update
      generalize mapUpdate? items' = other at update
      cases update with
      | some alike =>
          refine relates_bind (relates_child related near h alike.1) fun v n n' _ h => ?_
          exact relates_entries related near h alike.2

end Collections

/-! ## Segments -/

section Segments

/-- Readings of a specification that agree. -/
def ReadingAt (K : Simulation) (world : K.World) (site site' : Address) (r r' : Segment.Reading) :
    Prop :=
  K.NodeAt world site site' r.node r'.node ∧ r.sizeName = r'.sizeName ∧ r.node.kind = .binarySegment

theorem readingAt_set {r r' : Segment.Reading} (h : K.ReadingAt world site site' r r') (name : String)
    (value : Property) (other : name ∉ Node.placeNames) :
    K.ReadingAt world site site' (r.set name value) (r'.set name value) :=
  ⟨nodeAt_set h.1 name (figure_refl value) other, h.2⟩

theorem wordProperty_other (word : String) : Segment.wordProperty word ∉ Node.placeNames := by
  unfold Segment.wordProperty
  split
  · decide
  · split
    · decide
    · split <;> decide

theorem readingAt_readWord {r r' : Segment.Reading} (h : K.ReadingAt world site site' r r')
    (word : Source) :
    K.ReadingAt world site site' (Segment.readWord r word) (Segment.readWord r' word) := by
  unfold Segment.readWord
  split
  case h_3 => exact ⟨(readingAt_set h _ _ (by decide)).1, rfl, h.2.2⟩
  case h_6 => exact readingAt_set (readingAt_set h _ _ (by decide)) _ _ (by decide)
  case h_7 => exact readingAt_set h _ _ (wordProperty_other _)
  case h_8 => exact readingAt_set h _ _ (wordProperty_other _)
  case h_10 => exact h
  all_goals exact readingAt_set h _ _ (by decide)

/-- Where no level is left in the first run, it may be cut off there. -/
theorem relates_tooDeep_cut {α β : Type} {value : K.World → α → β → Prop} {m' : Build β} {room : Nat}
    (cut : K.room 0 (room + 1)) (site : Address) : K.Relates stack world value (tooDeep site) m' := by
  intro s s' _
  have allowed := K.room_zero cut site
  cases (m'.run K.limits').run s' with
  | error f' => exact .inl allowed
  | ok y => exact allowed

/-- Pending specifications: the same trees, with levels left that correspond. -/
theorem relates_readPending {pending pending' : List (Source × Nat)} {r r' : Segment.Reading}
    (at' : K.address site site')
    (alike : List.Forall₂ (fun p p' => p.1 = p'.1 ∧ K.room p.2 p'.2) pending pending')
    (h : K.ReadingAt world site site' r r') :
    K.Relates stack world (fun v => K.ReadingAt v site site')
      (Segment.readPending site pending r) (Segment.readPending site' pending' r') := by
  fun_induction Segment.readPending site pending r generalizing pending' r' with
  | case1 r =>
      cases alike
      rw [Segment.readPending]
      exact relates_pure h
  | case2 spec rest r =>
      obtain _ | ⟨⟨same, room⟩, rest'⟩ := alike
      rename_i first' others'
      obtain ⟨spec', room'⟩ := first'
      cases room' with
      | zero =>
          rw [Segment.readPending.eq_2]
          exact relates_tooDeep at'
      | succ room' => exact relates_tooDeep_cut room site
  | case3 r note left right room rest ih =>
      obtain _ | ⟨⟨same, allowed⟩, rest'⟩ := alike
      rename_i first' others'
      obtain ⟨spec', room'⟩ := first'
      obtain rfl : _ = spec' := same
      cases room' with
      | zero => exact absurd allowed K.room_succ
      | succ room' =>
          have below := K.room_pred allowed
          rw [Segment.readPending]
          exact ih (.cons ⟨rfl, below⟩ (.cons ⟨rfl, below⟩ rest')) h
  | case4 r word room rest split ih =>
      obtain _ | ⟨⟨same, allowed⟩, rest'⟩ := alike
      rename_i first' others'
      obtain ⟨spec', room'⟩ := first'
      obtain rfl : _ = spec' := same
      cases room' with
      | zero => exact absurd allowed K.room_succ
      | succ room' =>
          rw [Segment.readPending.eq_4 _ _ _ _ _ split]
          exact ih rest' (readingAt_readWord h word)

theorem sizes_mono {later : K.World} (grown : K.grows world later)
    {sizes sizes' : List (String × Address)} (alike : K.Sizes stack world sizes sizes') :
    K.Sizes stack later sizes sizes' :=
  alike.imp fun _ _ ⟨named, near, segment⟩ => ⟨named, near, K.segment_mono grown segment⟩

variable {β γ : Type} {build : Address → Source → β → Build β}
  {build' : Address → Source → γ → Build γ} {alike : Address → Source → Source → Prop}

/-- What is asked of the builders of segments' values. -/
structure Values (K : Simulation) (stack : K.Stack) (alike : Address → Source → Source → Prop)
    (value : K.World → β → γ → Prop) (build : Address → Source → β → Build β)
    (build' : Address → Source → γ → Build γ) : Prop where
  mono : ∀ {v w b c}, K.grows v w → value v b c → value w b c
  step : ∀ {world site site' s s' b c}, K.within stack site → K.address site site' →
    alike site s s' → value world b c →
    K.Relates stack world (fun v b c => K.part v site site' ∧ value v b c) (build site s b)
      (build' site' s' c)

theorem relates_segment {value : K.World → β → γ → Prop}
    (values : Values K stack alike value build build') {room room' : Nat} (rooms : K.room room room')
    {s s' : Source} {x : β × List (String × Address)} {y : γ × List (String × Address)}
    (near : K.within stack site) (at' : K.address site site') (segment : K.like.Segment alike site s s')
    (start : value world x.1 y.1) (sizes : K.Sizes stack world x.2 y.2) :
    K.Relates stack world
      (fun v x y => K.part v site site' ∧ value v x.1 y.1 ∧ K.Sizes stack v x.2 y.2)
      (Segment.step room build site s x) (Segment.step room' build' site' s' y) := by
  obtain ⟨position, valued, spec⟩ := segment
  obtain ⟨b, found⟩ := x
  obtain ⟨c, found'⟩ := y
  -- With a specification or without, the node is emitted last and a size is noted for it.
  have finish : ∀ later r r' b c, K.grows world later → K.ReadingAt later site site' r r' →
      value later b c →
      K.Relates stack later
        (fun v x y => K.part v site site' ∧ value v x.1 y.1 ∧ K.Sizes stack v x.2 y.2)
        (do
          emit r.node
          pure (b, found ++ (r.sizeName.map fun name => (name, site)).toList))
        (do
          emit r'.node
          pure (c, found' ++ (r'.sizeName.map fun name => (name, site')).toList)) := by
    intro later r r' b c grown reading built
    obtain ⟨node, same, kind⟩ := reading
    refine relates_bind (relates_emitAs near node) fun v _ _ further standing => ?_
    refine relates_pure ⟨standing.1, values.mono further built, ?_⟩
    refine List.rel_append (sizes_mono (K.grows_trans grown further) sizes) ?_
    rw [← same]
    cases r.sizeName with
    | none => exact .nil
    | some name => exact .cons ⟨rfl, near, standing.2.1 kind⟩ .nil
  unfold Segment.step
  generalize Segment.split s = parts at valued spec ⊢
  generalize Segment.split s' = parts' at valued spec ⊢
  obtain ⟨source, spec₁⟩ := parts
  obtain ⟨source', spec₂⟩ := parts'
  refine relates_bind (values.step (K.within_child _ near) (K.address_child _ at') valued start)
    fun v b c grown built => ?_
  have node : K.NodeAt v site site' _ _ := nodeAt_withPosition (nodeAt_relate
    (nodeAt_make at' (show NodeKind.binarySegment ≠ .variable by decide)) .value built.1) (.inl position)
  have fresh : K.ReadingAt v site site' ⟨_, none⟩ ⟨_, none⟩ :=
    ⟨node, rfl, Node.withPosition_kind _ _⟩
  cases spec with
  | none => exact finish v _ _ b c grown fresh built.2
  | @some spec₁ spec₂ same =>
      dsimp only
      rw [← same]
      refine relates_bind (relates_readPending at' (.cons ⟨rfl, rooms⟩ .nil) fresh)
        fun u r r' further reading => ?_
      exact finish u r r' b c (K.grows_trans grown further) reading (values.mono further built.2)

theorem relates_buildAll {value : K.World → β → γ → Prop}
    (values : K.Values stack alike value build build') {room room' : Nat} (rooms : K.room room room')
    {segments segments' : List Source} {b : β} {c : γ} (near : K.within stack site)
    (h : K.NodeAt world site site' n n')
    (each : Each (K.like.Segment alike) site .segment 0 segments segments')
    (start : value world b c) :
    K.Relates stack world
      (fun v x y => K.NodeAt v site site' x.1 y.1 ∧ value v x.2.1 y.2.1 ∧
        K.Sizes stack v x.2.2 y.2.2)
      (Segment.buildAll room build n segments b) (Segment.buildAll room' build' n' segments' c) := by
  have at' := nodeAt_address h
  have count := each.length_eq
  obtain ⟨node, rfl, rfl⟩ := h
  unfold Segment.buildAll
  rw [← count]
  refine relates_bind (K.relates_fanout _ _ at') fun v _ _ grown _ => ?_
  refine relates_bind (relates_foldParts
    (fun v x y => value v x.1 y.1 ∧ K.Sizes stack v x.2 y.2) near at'
    (fun _ _ _ _ _ _ _ _ near at' alike started =>
      relates_segment values rooms near at' alike started.1 started.2) each
    (show value v (b, []).1 (c, []).1 ∧ K.Sizes stack v [] [] from ⟨values.mono grown start, .nil⟩))
    fun u x y further built => ?_
  exact relates_pure ⟨nodeAt_relateAll (nodeAt_declare
    (nodeAt_mono (K.grows_trans grown further) ⟨node, rfl, rfl⟩) _) _ built.1, built.2⟩

end Segments

/-! ## Literals -/

theorem scalarNode_at (at' : K.address site site') {kind : NodeKind} (other : kind ≠ .variable)
    (value : Property) :
    K.NodeAt world site site' (scalarNode site kind value) (scalarNode site' kind value) :=
  nodeAt_set (nodeAt_withTags (nodeAt_make at' other) _) _ (figure_refl _) (by decide)

theorem compositeNode_at (at' : K.address site site') {kind : NodeKind} (other : kind ≠ .variable) :
    K.NodeAt world site site' (compositeNode site kind) (compositeNode site' kind) :=
  nodeAt_withTags (nodeAt_make at' other) _

/-- The name of a type becomes a property if it has one. -/
theorem nodeAt_typeName (h : K.NodeAt world site site' n n') {typeRef typeRef' : Source}
    (named : typeName? typeRef = typeName? typeRef') :
    K.NodeAt world site site'
      (match typeName? typeRef with
        | some name => n.set "type_name" name
        | none => n)
      (match typeName? typeRef' with
        | some name => n'.set "type_name" name
        | none => n') := by
  rw [← named]
  exact nodeAt_optionalText h "type_name" (typeName? typeRef) (by decide)

section Literals

variable (related : level.Related K level')
include related

theorem Values.ofExpression :
    K.Values stack K.like.expression (fun _ (_ _ : Unit) => True)
      (fun address value _ => level.expression address value)
      (fun address value _ => level'.expression address value) :=
  ⟨fun _ _ => trivial, fun near at' alike _ =>
    relates_mono (related.expression near at' alike) fun _ _ _ _ part => ⟨part, trivial⟩⟩

theorem relates_literalNode {shape shape' : Literal} {position position' : Option Position}
    (near : K.within stack site) (at' : K.address site site')
    (positions : K.like.position position position') (alike : K.like.Literal site shape shape') :
    K.Relates stack world (fun v => K.NodeAt v site site')
      (literalNode level site position shape) (literalNode level' site' position' shape') := by
  cases alike with
  | scalar scalar =>
      cases shape with
      | integer value | float value | text value | boolean value | atom value =>
          exact relates_pure (scalarNode_at at' (by decide) _)
      | nil => exact relates_pure (nodeAt_withTags (nodeAt_make at' (by decide)) _)
      | _ => cases scalar
  | @list items items' elements tail =>
      simp only [literalNode]
      generalize Source.splitTail items = parts at elements tail ⊢
      generalize Source.splitTail items' = parts' at elements tail ⊢
      obtain ⟨firsts, last⟩ := parts
      obtain ⟨firsts', last'⟩ := parts'
      refine relates_bind (relates_elements related near (compositeNode_at at' (by decide)) elements)
        fun v n n' _ h => ?_
      cases tail with
      | none => exact relates_pure h
      | some tail => exact relates_child related near h tail
  | keywordList entries =>
      exact relates_entries related near (compositeNode_at at' (by decide)) entries
  | tuple elements => exact relates_elements related near (compositeNode_at at' (by decide)) elements
  | map body => exact relates_mapBody related near (compositeNode_at at' (by decide)) body
  | struct type named body =>
      refine relates_bind (relates_child related near (compositeNode_at at' (by decide)) type)
        fun v n n' _ h => ?_
      exact relates_mapBody related near (nodeAt_typeName h named) body
  | range low high steps =>
      exact relates_bounds related near (compositeNode_at at' (by decide))
        (.cons ⟨rfl, .some low⟩ (.cons ⟨rfl, .some high⟩ (.cons ⟨rfl, steps⟩ .nil)))
  | @sigil letter content content' modifiers modifiers' modified plain contents =>
      have node : K.NodeAt world site site' _ _ := nodeAt_set (nodeAt_set (nodeAt_withTags
        (nodeAt_make at' (show NodeKind.sigilLiteral ≠ .variable by decide)) scalarTags) "letter"
        (figure_refl (.text letter)) (by decide)) "modifiers"
        (figure_refl (.text (modifierText modifiers))) (by decide)
      simp only [literalNode]
      rw [← modified, ← plain]
      cases found : plainContent? content with
      | some text => exact relates_pure (nodeAt_set node _ (figure_refl _) (by decide))
      | none => exact relates_child related near node (contents found)
  | binary segments =>
      refine relates_bind (relates_buildAll (Values.ofExpression related) related.room near
        (compositeNode_at at' (by decide)) segments trivial) fun v x y _ built => ?_
      refine relates_bind (relates_readAll built.2.2 positions) fun u _ _ grown _ => ?_
      exact relates_pure (nodeAt_mono grown built.1)

theorem relates_literal {shape shape' : Literal} {s s' : Source} (near : K.within stack site)
    (at' : K.address site site') (positions : K.like.position s.position s'.position)
    (alike : K.like.Literal site shape shape') :
    K.Relates stack world (fun v _ _ => K.part v site site') (literal level site s shape)
      (literal level' site' s' shape') := by
  refine relates_bind (relates_literalNode related near at' positions alike) fun v n n' _ h => ?_
  exact relates_emit near (nodeAt_withPosition h (.inl positions))

end Literals

/-! ## Patterns -/

theorem patternNode_at (at' : K.address site site') {s s' : Source}
    (positions : K.like.position s.position s'.position) {kind : NodeKind} (other : kind ≠ .variable) :
    K.NodeAt world site site' (patternNode site kind s) (patternNode site' kind s') :=
  nodeAt_withPosition (nodeAt_withTags (nodeAt_make at' other) _) (.inl positions)

/-- Of the sizes, those are read that the position does not bind itself. -/
theorem sizes_filter {sizes sizes' : List (String × Address)} {bindings bindings' : Bindings}
    (alike : K.Sizes stack world sizes sizes')
    (bound : List.Forall₂ (K.binding world) bindings bindings') :
    K.Sizes stack world (sizes.filter fun size => !bindings.binds size.1)
      (sizes'.filter fun size => !bindings'.binds size.1) := by
  have same : ∀ name, bindings'.binds name = bindings.binds name := fun name => (binds_eq bound name).symm
  simp only [same]
  induction alike with
  | nil => exact .nil
  | @cons size size' _ _ first _ ih =>
      rw [List.filter_cons, List.filter_cons, ← first.1]
      split
      · exact .cons first ih
      · exact ih

theorem signedNumber?_kind {number : Source} {found : NodeKind × Property}
    (h : signedNumber? number = some found) : found.1 ≠ .variable := by
  unfold signedNumber? at h
  split at h
  · cases h
    exact nofun
  · cases h
    exact nofun
  · cases h

theorem plainText?_eq_some {s : Source} {value : String} (h : plainText? s = some value) :
    s = .text value := by
  unfold plainText? at h
  split at h
  · cases h
    rfl
  · cases h

section Patterns

variable {bindings bindings' : Bindings}

/-- The node of a pattern is emitted last. -/
theorem relates_emitPattern (near : K.within stack site) (h : K.NodeAt world site site' n n')
    (bound : List.Forall₂ (K.binding world) bindings bindings') :
    K.Relates stack world
      (fun v found found' => K.part v site site' ∧ List.Forall₂ (K.binding v) found found')
      (do
        emit n
        return bindings)
      (do
        emit n'
        return bindings') :=
  relates_bind (relates_emit near h) fun _ _ _ grown part =>
    relates_pure ⟨part, bindings_mono grown bound⟩

/-- A variable binds its name, unless its position has bound it before. -/
theorem relates_variablePattern {name : String} {s s' : Source} (near : K.within stack site)
    (at' : K.address site site') (positions : K.like.position s.position s'.position)
    (bound : List.Forall₂ (K.binding world) bindings bindings') :
    K.Relates stack world
      (fun v found found' => K.part v site site' ∧ List.Forall₂ (K.binding v) found found')
      (do
        let bindings ← bindings.add ⟨name, some site, s.position⟩ site
        emit ((patternNode site .variablePattern s)
          |>.withTags [.binding]
          |>.set "name" name
          |>.set "ignored" (isIgnored name))
        return bindings)
      (do
        let bindings ← bindings'.add ⟨name, some site', s'.position⟩ site'
        emit ((patternNode site' .variablePattern s')
          |>.withTags [.binding]
          |>.set "name" name
          |>.set "ignored" (isIgnored name))
        return bindings) := by
  unfold Bindings.add
  rw [← binds_eq bound]
  by_cases twice : bindings.binds name
  · rw [if_pos twice, if_pos twice]
    exact relates_refused at' _
  · rw [if_neg twice, if_neg twice]
    have node : K.NodeAt world site site' _ _ := nodeAt_set (nodeAt_set (nodeAt_withTags
      (patternNode_at at' positions (show NodeKind.variablePattern ≠ .variable by decide))
      [.binding]) "name" (figure_refl (.text name)) (by decide)) "ignored"
      (figure_refl (.boolean (isIgnored name))) (by decide)
    rw [pure_bind, pure_bind]
    refine relates_bind (relates_emitAs near node) fun v _ _ grown standing => ?_
    have introduced := standing.2.2 name s.position s'.position (by simp [patternNode])
      (by rw [Node.text?_set_of_ne _ _ (by decide), Node.text?_set_self]) positions
    exact relates_pure ⟨standing.1, List.rel_append (bindings_mono grown bound) (.cons introduced .nil)⟩

/-- The parts of a pattern are numbered, and hand on what they bind. -/
theorem relates_patternCollection {alike : Address → Source → Source → Prop}
    {build build' : Address → Source → Bindings → Build Bindings} {items items' : List Source}
    (what : String) (near : K.within stack site) (h : K.NodeAt world site site' n n')
    (step : ∀ {world site site' s s' bindings bindings'}, K.within stack site →
      K.address site site' → alike site s s' → List.Forall₂ (K.binding world) bindings bindings' →
      K.Relates stack world
        (fun v found found' => K.part v site site' ∧ List.Forall₂ (K.binding v) found found')
        (build site s bindings) (build' site' s' bindings'))
    (each : Each alike site role 0 items items')
    (bound : List.Forall₂ (K.binding world) bindings bindings') :
    K.Relates stack world
      (fun v x y => K.NodeAt v site site' x.1 y.1 ∧ List.Forall₂ (K.binding v) x.2 y.2)
      (do
        checkFanout n.address what items.length
        let (addresses, bindings) ← foldParts n.address role build 0 items bindings
        return ((n.declare role).relateAll role addresses, bindings))
      (do
        checkFanout n'.address what items'.length
        let (addresses, bindings) ← foldParts n'.address role build' 0 items' bindings'
        return ((n'.declare role).relateAll role addresses, bindings)) := by
  have at' := nodeAt_address h
  obtain ⟨node, rfl, rfl⟩ := h
  rw [← each.length_eq]
  refine relates_bind (K.relates_fanout _ _ at') fun v _ _ grown _ => ?_
  refine relates_bind (relates_foldParts (fun v => List.Forall₂ (K.binding v)) near at'
    (fun _ _ _ _ _ _ _ _ near at' alike bound => step near at' alike bound) each
    (bindings_mono grown bound)) fun u x y further found => ?_
  exact relates_pure ⟨nodeAt_relateAll (nodeAt_declare
    (nodeAt_mono (K.grows_trans grown further) ⟨node, rfl, rfl⟩) _) _ found.1, found.2⟩

variable (related : level.Related K level')
include related

theorem relates_patternElements {items items' : List Source} (near : K.within stack site)
    (h : K.NodeAt world site site' n n') (alike : Each K.like.pattern site .element 0 items items')
    (bound : List.Forall₂ (K.binding world) bindings bindings') :
    K.Relates stack world
      (fun v x y => K.NodeAt v site site' x.1 y.1 ∧ List.Forall₂ (K.binding v) x.2 y.2)
      (patternElements level n items bindings) (patternElements level' n' items' bindings') :=
  relates_patternCollection "pattern element" near h
    (fun near at' alike bound => related.pattern near at' alike bound) alike bound

theorem relates_patternEntry {s s' : Source} (near : K.within stack site)
    (at' : K.address site site') (alike : K.like.Entry K.like.pattern site s s')
    (bound : List.Forall₂ (K.binding world) bindings bindings') :
    K.Relates stack world
      (fun v found found' => K.part v site site' ∧ List.Forall₂ (K.binding v) found found')
      (patternEntry level site s bindings) (patternEntry level' site' s' bindings') := by
  obtain ⟨position, -, parts⟩ := alike
  unfold patternEntry
  generalize s.mapEntry? = entry at parts ⊢
  generalize s'.mapEntry? = entry' at parts ⊢
  cases parts with
  | none => exact relates_malformed at' _
  | @some pair pair' alike =>
      obtain ⟨key, value⟩ := pair
      obtain ⟨key', value'⟩ := pair'
      refine relates_bind (related.pattern (K.within_child _ near) (K.address_child _ at') alike.1
        .nil) fun v keys keys' grown keyed => ?_
      obtain ⟨keyPart, keyed⟩ := keyed
      -- The keys of both runs bind, or neither does.
      cases keyed with
      | nil =>
          refine relates_bind (related.pattern (K.within_child _ near) (K.address_child _ at')
            alike.2 (bindings_mono grown bound)) fun u found found' further valued => ?_
          refine relates_bind (relates_emit near (nodeAt_withPosition (nodeAt_relate (nodeAt_relate
            (nodeAt_withTags (nodeAt_make at' (by decide)) _) _ (K.part_mono further keyPart)) _
            valued.1) (.inl position))) fun w _ _ more part => ?_
          exact relates_pure ⟨part, bindings_mono more valued.2⟩
      | cons _ _ =>
          exact relates_refused (K.address_child _ at') _

theorem relates_patternEntries {items items' : List Source} (near : K.within stack site)
    (h : K.NodeAt world site site' n n')
    (alike : Each (K.like.Entry K.like.pattern) site .entry 0 items items')
    (bound : List.Forall₂ (K.binding world) bindings bindings') :
    K.Relates stack world
      (fun v x y => K.NodeAt v site site' x.1 y.1 ∧ List.Forall₂ (K.binding v) x.2 y.2)
      (patternEntries level n items bindings) (patternEntries level' n' items' bindings') :=
  relates_patternCollection "pattern entry" near h
    (fun near at' alike bound => relates_patternEntry related near at' alike bound) alike bound

theorem Values.ofPattern :
    K.Values stack K.like.pattern (fun v => List.Forall₂ (K.binding v)) level.pattern level'.pattern :=
  ⟨fun grown bound => bindings_mono grown bound,
    fun near at' alike bound => related.pattern near at' alike bound⟩

theorem relates_patternStep {sameDepth sameDepth' : Address → Source → Build Unit} {s s' : Source}
    (near : K.within stack site) (at' : K.address site site') (alike : K.like.Pattern site s s')
    (bound : List.Forall₂ (K.binding world) bindings bindings')
    (expression : K.like.Expression site s s' →
      K.Relates stack world (fun v _ _ => K.part v site site') (sameDepth site s)
        (sameDepth' site' s')) :
    K.Relates stack world
      (fun v found found' => K.part v site site' ∧ List.Forall₂ (K.binding v) found found')
      (patternStep level sameDepth site s bindings) (patternStep level' sameDepth' site' s' bindings') := by
  unfold patternStep
  cases alike with
  | value first second alike =>
      rw [first, second]
      exact relates_bind (expression alike) fun _ _ _ grown part =>
        relates_pure ⟨part, bindings_mono grown bound⟩
  | shape positions alike =>
      generalize s.pattern = shape at alike ⊢
      generalize s'.pattern = shape' at alike ⊢
      cases alike with
      | literal alike =>
          exact relates_bind (relates_literal related near at' positions alike) fun _ _ _ grown part =>
            relates_pure ⟨part, bindings_mono grown bound⟩
      | @signed number number' same =>
          dsimp only
          rw [← same]
          cases found : signedNumber? number with
          | none => exact relates_malformed at' _
          | some signed =>
              have other := signedNumber?_kind found
              exact relates_emitPattern near (nodeAt_withPosition (nodeAt_set
                (nodeAt_withTags (nodeAt_make at' other) _) _ (figure_refl _) (by decide))
                (.inl positions)) bound
      | symbol name => exact relates_variablePattern near at' positions bound
      | wildcard => exact relates_emitPattern near (patternNode_at at' positions (by decide)) bound
      | @pin pinned pinned' named alike =>
          dsimp only
          rw [← named]
          cases found : pinned.symbol? with
          | none => exact relates_malformed at' _
          | some name =>
              refine relates_bind (relates_child related near (nodeAt_set
                (patternNode_at at' positions (by decide)) _ (figure_refl _) (by decide))
                (alike (by rw [found]; rfl)))
                fun v n n' grown h => ?_
              exact relates_emitPattern near h (bindings_mono grown bound)
      | tuple elements =>
          refine relates_bind (relates_patternElements related near
            (patternNode_at at' positions (by decide)) elements bound) fun v x y grown found => ?_
          exact relates_emitPattern near found.1 found.2
      | list elements tails =>
          refine relates_bind (relates_patternElements related near
            (patternNode_at at' positions (by decide)) elements bound) fun v x y grown found => ?_
          cases tails with
          | none => exact relates_emitPattern near found.1 found.2
          | some tail =>
              refine relates_bind (relates_patternChild related near found.1 tail found.2)
                fun u x y grown found => ?_
              exact relates_emitPattern near found.1 found.2
      | map entries =>
          refine relates_bind (relates_patternEntries related near
            (patternNode_at at' positions (by decide)) entries bound) fun v x y grown found => ?_
          exact relates_emitPattern near found.1 found.2
      | struct type named entries =>
          refine relates_bind (relates_patternChild related near
            (patternNode_at at' positions (by decide)) type bound) fun v x y grown found => ?_
          refine relates_bind (relates_patternEntries related near (nodeAt_typeName found.1 named)
            entries found.2) fun u x y grown found => ?_
          exact relates_emitPattern near found.1 found.2
      | binary segments =>
          refine relates_bind (relates_buildAll (Values.ofPattern related) related.room near
            (patternNode_at at' positions (by decide)) segments bound) fun v x y _ built => ?_
          refine relates_bind (relates_readAll (sizes_filter built.2.2 built.2.1) positions)
            fun u _ _ grown _ => ?_
          exact relates_emitPattern near (nodeAt_mono grown built.1)
            (bindings_mono grown built.2.1)
      | both inner whole =>
          refine relates_bind (relates_patternChild related near
            (patternNode_at at' positions (by decide)) inner bound) fun v x y grown found => ?_
          refine relates_bind (relates_patternChild related near found.1 whole found.2)
            fun u x y grown found => ?_
          exact relates_emitPattern near found.1 found.2
      | @textHead head head' rest rest' same rests =>
          cases found : plainText? head with
          | none =>
              dsimp only
              split
              · cases found
              · split
                · cases same.symm.trans found
                · exact relates_malformed at' _
          | some value =>
              obtain rfl := plainText?_eq_some found
              obtain rfl := plainText?_eq_some (same.symm.trans found)
              refine relates_bind (relates_patternChild related near (nodeAt_set
                (patternNode_at at' positions (by decide)) _ (figure_refl _) (by decide)) (rests rfl) bound)
                fun v x y grown found => ?_
              exact relates_emitPattern near found.1 found.2
      | fallback inners values =>
          refine relates_bind (relates_patternChild related near
            (patternNode_at at' positions (by decide)) inners bound) fun v x y grown found => ?_
          refine relates_bind (relates_child related near found.1 values) fun u n n' grown h => ?_
          exact relates_emitPattern near h (bindings_mono grown found.2)
      | unknown tag => exact relates_malformed at' _

end Patterns

end Simulation

end SyntaxGraph
