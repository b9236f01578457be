import SyntaxGraph.Proofs.Counts
import SyntaxGraph.Proofs.Soundness
import SyntaxGraph.Proofs.Tree

/-!
# Every builder tallies

One lemma per builder: whatever it emits is within the ceilings and states the right counts,
and its closures are reported. Depth is counted in segments of addresses. A part of a node, or
a part of one of its clauses, entries or segments, is at most four segments further down than
the node and one level deeper, so every level accounts for four segments.

From the builders this passes to levels, by induction on the levels that are left, and so to
all that is compiled: the ceilings bound the output, not only the walk over the source.
-/

namespace SyntaxGraph

/-- What is built at a level for a node at `top`: parts at most four segments further down
tally, and nodes of the builder itself are at most two segments further down. -/
structure Level.Serves (level : Level) (limits : Limits) (bound : Nat) (top : Address) : Prop where
  low : top.size + 2 ≤ bound
  expression : ∀ {site source s t}, site.size ≤ top.size + 4 →
    (level.expression site source).Yields limits s () t → Tallied limits bound s t
  pattern : ∀ {site source bindings result s t}, site.size ≤ top.size + 4 →
    (level.pattern site source bindings).Yields limits s result t → Tallied limits bound s t

namespace Build

variable {limits : Limits} {bound : Nat} {level inner : Level} {top site : Address}
  {node result : Node} {role : Role} {source : Source} {items : List Source} {s t : Session}

/-! ## Parts -/

theorem child_fitting (serves : level.Serves limits bound top) (near : node.address.size ≤ top.size + 2)
    (free : role.isCapped = false) (h : (level.child node role source).Yields limits s result t) :
    Fitting limits bound [role] node s result t := by
  obtain ⟨inner, rfl⟩ := yields_child h
  apply Fitting.single node role _ free
  apply serves.expression _ inner
  rw [Address.size_child]
  omega

theorem optionalChild_fitting (serves : level.Serves limits bound top)
    (near : node.address.size ≤ top.size + 2) (free : role.isCapped = false) {part : Option Source}
    (h : (optionalChild level node role part).Yields limits s result t) :
    Fitting limits bound [role] node s result t := by
  cases part with
  | none =>
      obtain ⟨rfl, rfl⟩ := yields_pure h
      exact (Fitting.refl node s).weaken (List.nil_subset _)
  | some source => exact child_fitting serves near free h

theorem foldParts_tallied {α β : Type} {build : Address → α → β → Build β} {index : Nat}
    {parts : List α} {value : β} {found : List Address × β}
    (step : ∀ address, ∀ part ∈ parts, ∀ s value t value', address.size = site.size + 2 →
      (build address part value).Yields limits s value' t → Tallied limits bound s t)
    (h : (foldParts site role build index parts value).Yields limits s found t) :
    found.1.length = parts.length ∧ Tallied limits bound s t := by
  refine ⟨length_foldParts h, ?_⟩
  induction parts generalizing index value s found with
  | nil =>
      obtain ⟨-, rfl⟩ := yields_foldParts_nil h
      exact .done s
  | cons part parts ih =>
      obtain ⟨middle, addresses, u, first, others, -⟩ := yields_foldParts_cons h
      have rest := ih (fun address other member => step address other (List.mem_cons_of_mem _ member)) others
      exact (step _ part List.mem_cons_self s value u middle (by simp) first).next rest

theorem eachPart_tallied {α : Type} {build : Address → α → Build Unit} {parts : List α}
    {addresses : List Address}
    (step : ∀ address, ∀ part ∈ parts, ∀ s t, address.size = site.size + 2 →
      (build address part).Yields limits s () t → Tallied limits bound s t)
    (h : (eachPart site role build parts).Yields limits s addresses t) :
    addresses.length = parts.length ∧ Tallied limits bound s t :=
  foldParts_tallied (fun address part member s _ t _ size inner => step address part member s t size inner)
    (yields_eachPart h)

/-- A leaf is emitted. -/
theorem leaf_tallied (bare : node.Bare) (common : node.kind.isCommon = true)
    (low : node.address.size ≤ bound) : Tallied limits bound s (s.emit node) :=
  (Fitting.refl node s).emit bare common low

theorem unknown_tallied {tag : String} {position : Option Position} {u : Unit}
    (low : site.size ≤ bound) (h : (unknown site tag position).Yields limits s u t) :
    Tallied limits bound s t := by
  obtain ⟨_, s₁, emitted, last⟩ := yields_bind h
  obtain rfl := yields_emit emitted
  obtain rfl := yields_modify last
  have placed : Tallied limits bound s ((s.emit (Diagnostic.mk site .unrecognizedShape tag position).node).diagnose
      ⟨site, .unrecognizedShape, tag, position⟩) := by
    refine ⟨[_], [], Session.emit_nodes _ _, by simp [Session.emit, Session.diagnose],
      .single (Diagnostic.node_fits _ limits) (by simp; rfl) (by simp) (by simpa using low),
      List.forall_mem_singleton.mpr (.ofKind (by simp; rfl)), [_], ?_, .ofNode _ rfl⟩
    simp [Session.emit, Session.diagnose]
  exact placed

/-! ## Literals -/

theorem elements_fitting (serves : level.Serves limits bound top)
    (near : node.address.size ≤ top.size + 2)
    (h : (elements level node items).Yields limits s result t) :
    Fitting limits bound [.element] node s result t := by
  obtain ⟨addresses, few, inner, rfl⟩ := yields_elements h
  obtain ⟨counted, tallied⟩ := eachPart_tallied
    (fun address _ _ _ _ size part => serves.expression (by omega) part) inner
  exact (Fitting.numbered node .element _ (fun _ => counted ▸ few) tallied).adjust (.set _ _ _ (by decide))

theorem entry_tallied (serves : level.Serves limits bound top) (near : site.size ≤ top.size + 2)
    {u : Unit} (h : (entry level site source).Yields limits s u t) : Tallied limits bound s t := by
  have low := serves.low
  cases isEntry : source.mapEntry? with
  | none =>
    rw [entry, isEntry] at h
    exact unknown_tallied (by omega) h
  | some pair =>
    obtain ⟨v, w, key, value, rfl⟩ := yields_entry isEntry h
    have keyed := Fitting.single ((Node.make site .mapEntry).withTags [.composite]) .key
      (site.child Role.key.label) rfl (serves.expression (by simp; omega) key)
    have valued := Fitting.single (((Node.make site .mapEntry).withTags [.composite]).relate .key
      (site.child Role.key.label)) .value (site.child Role.value.label) rfl
      (serves.expression (by simp; omega) value)
    have whole := (keyed.trans valued (by decide)).adjust (.withPosition _ source.position)
    exact whole.emitCounted ((Node.Bare.make site .mapEntry).withTags _) rfl
      (show site.size ≤ bound by omega) (entryNode_counted _ _ _ _ _)

theorem entries_fitting (serves : level.Serves limits bound top)
    (near : node.address.size ≤ top.size) (h : (entries level node items).Yields limits s result t) :
    Fitting limits bound [.entry] node s result t := by
  obtain ⟨addresses, few, inner, rfl⟩ := yields_entries h
  obtain ⟨counted, tallied⟩ := eachPart_tallied
    (fun address _ _ _ _ size part => entry_tallied serves (by omega) part) inner
  exact (Fitting.numbered node .entry _ (fun _ => counted ▸ few) tallied).adjust (.set _ _ _ (by decide))

theorem mapBody_fitting (serves : level.Serves limits bound top)
    (near : node.address.size ≤ top.size) (h : (mapBody level node items).Yields limits s result t) :
    Fitting limits bound [.base, .entry] node s result t := by
  unfold mapBody at h
  split at h
  · obtain ⟨middle, u, based, rest⟩ := yields_bind h
    have first := child_fitting serves (by omega) rfl based
    exact first.trans (entries_fitting serves (first.address ▸ near) rest) (by decide)
  · exact (entries_fitting serves near h).weaken (by decide)

theorem bounds_fitting (serves : level.Serves limits bound top)
    (near : node.address.size ≤ top.size + 2) {parts : List (Role × Option Source)}
    (free : ∀ part ∈ parts, part.1.isCapped = false) (distinct : (parts.map (·.1)).Nodup)
    (h : (bounds level node parts).Yields limits s result t) :
    Fitting limits bound (parts.map (·.1)) node s result t := by
  induction parts generalizing node s with
  | nil =>
      obtain ⟨rfl, rfl⟩ := yields_pure h
      exact .refl node s
  | cons part parts ih =>
      obtain ⟨role, source⟩ := part
      obtain ⟨new, others⟩ := List.nodup_cons.mp distinct
      have rest := fun part member => free part (List.mem_cons_of_mem _ member)
      cases source with
      | none => exact (ih near rest others h).weaken (List.subset_cons_self _ _)
      | some source =>
          obtain ⟨middle, u, first, last⟩ := yields_bind h
          have fitted := child_fitting serves near (free (role, some source) List.mem_cons_self) first
          refine fitted.trans (ih (fitted.address ▸ near) rest others last) fun other member => ?_
          rwa [List.mem_singleton.mp member]

/-- A word of a specification is noted under one of few names. -/
theorem readWord_kept (r : Segment.Reading) (word : Source) :
    (Segment.readWord r word).node.kind = r.node.kind ∧
      (Segment.readWord r word).node.property? "original_tag" = r.node.property? "original_tag" := by
  have spelled : ∀ word, "original_tag" ≠ Segment.wordProperty word := by
    intro word
    unfold Segment.wordProperty
    repeat' split
    all_goals decide
  have noted : ∀ (r : Segment.Reading) name value, "original_tag" ≠ name →
      (r.set name value).node.property? "original_tag" = r.node.property? "original_tag" :=
    fun r _ value other => r.node.property?_set_of_ne value other
  unfold Segment.readWord
  split
  · exact ⟨rfl, noted _ _ _ (by decide)⟩
  · exact ⟨rfl, noted _ _ _ (by decide)⟩
  · exact ⟨rfl, noted _ _ _ (by decide)⟩
  · exact ⟨rfl, noted _ _ _ (by decide)⟩
  · exact ⟨rfl, noted _ _ _ (by decide)⟩
  · exact ⟨rfl, (noted _ _ _ (by decide)).trans (noted _ _ _ (by decide))⟩
  · exact ⟨rfl, noted _ _ _ (spelled _)⟩
  · exact ⟨rfl, noted _ _ _ (spelled _)⟩
  · exact ⟨rfl, noted _ _ _ (by decide)⟩
  · exact ⟨rfl, rfl⟩

/-- The words of a specification do not change what a segment is. -/
theorem readPending_kept {pending : List (Source × Nat)} {r found : Segment.Reading}
    (h : (Segment.readPending site pending r).Yields limits s found t) :
    found.node.kind = r.node.kind ∧
      found.node.property? "original_tag" = r.node.property? "original_tag" := by
  fun_induction Segment.readPending site pending r with
  | case1 r =>
      obtain ⟨rfl, rfl⟩ := yields_pure h
      exact ⟨rfl, rfl⟩
  | case2 r => exact absurd h not_yields_tooDeep
  | case3 r note left right room rest ih => exact ih h
  | case4 r word room rest split ih =>
      have kept := readWord_kept r word
      exact ⟨(ih h).1.trans kept.1, (ih h).2.trans kept.2⟩

theorem segment_tallied {β : Type} {build : Address → Source → β → Build β} {room : Nat}
    {state found : β × List (String × Address)} (low : site.size ≤ bound)
    (step : ∀ {address source s value t value'}, address.size ≤ site.size + 1 →
      (build address source value).Yields limits s value' t → Tallied limits bound s t)
    (h : (Segment.step room build site source state).Yields limits s found t) :
    Tallied limits bound s t := by
  obtain ⟨value, u, reading, w, inner, read, rfl, rfl⟩ := Segment.yields_step h
  obtain ⟨kind, tag⟩ := readPending_kept read
  obtain ⟨rfl, address, relations⟩ := Segment.yields_readPending read
  have first : Tallied limits bound s u := step (by simp) inner
  have fitted : Fitting limits bound [.value] (Node.make site .binarySegment) s
      (((Node.make site .binarySegment).relate .value (site.child Role.value.label)).withPosition
        source.position) u :=
    (Fitting.single _ .value _ rfl first).adjust (.withPosition _ _)
  have whole := fitted.adjust (.same address kind tag fun role => Node.relation_congr role relations)
  exact whole.emit (.make site _) rfl low

theorem buildAll_fitting {β : Type} {build : Address → Source → β → Build β} {room : Nat} {value : β}
    {found : Node × β × List (String × Address)} (low : node.address.size + 2 ≤ bound)
    (step : ∀ {address source s value t value'}, address.size ≤ node.address.size + 3 →
      (build address source value).Yields limits s value' t → Tallied limits bound s t)
    (h : (Segment.buildAll room build node items value).Yields limits s found t) :
    Fitting limits bound [.segment] node s found.1 t := by
  obtain ⟨addresses, final, few, inner, rfl⟩ := Segment.yields_buildAll h
  obtain ⟨counted, tallied⟩ := foldParts_tallied (fun address _ _ _ _ _ _ size part =>
    segment_tallied (by omega) (fun near => step (by omega)) part) inner
  exact .numbered node .segment _ (fun _ => counted ▸ few) tallied

/-- The node of a literal is fitted from one without targets, and if it is a collection it counts
its parts. -/
theorem literalNode_fitting (serves : level.Serves limits bound site) {position : Option Position}
    {shape : Literal} (h : (literalNode level site position shape).Yields limits s result t) :
    ∃ (node : Node) (roles : List Role), node.address = site ∧ node.Bare ∧ node.kind.isUncapped = true ∧
      Fitting limits bound roles node s result t ∧ ∀ stands, result.Counted stands := by
  have scalar : ∀ kind value, (scalarNode site kind value).Bare := fun kind value =>
    ((Node.Bare.make site kind).withTags _).set _ _ (by decide)
  have composite : ∀ kind, (compositeNode site kind).Bare := fun kind => (Node.Bare.make site kind).withTags _
  have near : ∀ kind, (compositeNode site kind).address.size ≤ site.size := fun _ => Nat.le_refl _
  have near' : ∀ kind, (compositeNode site kind).address.size ≤ site.size + 2 := fun _ =>
    Nat.le_add_right _ _
  cases shape with
  | nil =>
      obtain ⟨rfl, rfl⟩ := yields_pure h
      exact ⟨_, _, rfl, (Node.Bare.make site .nilLiteral).withTags _, rfl, .refl _ _, fun _ => .ofKind rfl⟩
  | list items =>
      obtain ⟨middle, u, first, rest⟩ := yields_bind h
      have filled := elements_fitting serves (near' _) first
      have states := elements_states ((composite _).targets _) first
      split at rest
      · obtain ⟨rfl, rfl⟩ := yields_pure rest
        exact ⟨_, _, rfl, composite _, rfl, filled, fun _ => .ofElements (.inl filled.kind) states⟩
      · have tail := child_fitting serves (filled.address ▸ near' _) rfl rest
        have whole := filled.trans tail (by decide)
        -- The tail of a list is not one of its elements.
        rw [← tail.related (by decide)] at states
        obtain ⟨-, rfl⟩ := yields_child rest
        exact ⟨_, _, rfl, composite _, rfl, whole, fun _ => .ofElements (.inl whole.kind) states⟩
  | keywordList items =>
      have filled := entries_fitting serves (near _) h
      exact ⟨_, _, rfl, composite _, rfl, filled, fun _ =>
        .ofEntries (.inl filled.kind) (entries_states ((composite _).targets _) h)⟩
  | tuple items =>
      have filled := elements_fitting serves (near' _) h
      exact ⟨_, _, rfl, composite _, rfl, filled, fun _ =>
        .ofElements (.inr filled.kind) (elements_states ((composite _).targets _) h)⟩
  | map items =>
      have filled := mapBody_fitting serves (near _) h
      exact ⟨_, _, rfl, composite _, rfl, filled, fun _ =>
        .ofEntries (.inr (.inl filled.kind)) (mapBody_states ((composite _).targets _) h)⟩
  | struct typeRef fields =>
      obtain ⟨middle, u, first, rest⟩ := yields_bind h
      have typed := child_fitting serves (near' _) rfl first
      have lower : middle.address.size ≤ site.size := typed.address ▸ near _
      have fresh : middle.relation .entry = .empty true :=
        (typed.kept .entry (by decide)).trans ((composite _).targets _)
      dsimp only at rest
      split at rest
      · have body := mapBody_fitting serves (show (middle.set _ _).address.size ≤ _ from lower) rest
        have whole := (typed.adjust (.set _ _ _ (by decide))).trans body (by decide)
        have states := mapBody_states (show (middle.set _ _).relation .entry = .empty true from fresh) rest
        exact ⟨_, _, rfl, composite _, rfl, whole, fun _ => .ofEntries (.inr (.inr whole.kind)) states⟩
      · have whole := typed.trans (mapBody_fitting serves lower rest) (by decide)
        exact ⟨_, _, rfl, composite _, rfl, whole, fun _ =>
          .ofEntries (.inr (.inr whole.kind)) (mapBody_states fresh rest)⟩
  | range first last step =>
      have filled := bounds_fitting serves (near' _) (by simp; decide) (by simp) h
      exact ⟨_, _, rfl, composite _, rfl, filled, fun _ => .ofKind (by rw [filled.kind]; rfl)⟩
  | sigil letter content modifiers =>
      have bare := ((Node.Bare.make site .sigilLiteral).withTags scalarTags).set "letter" letter (by decide)
      dsimp only [literalNode] at h
      split at h
      · obtain ⟨rfl, rfl⟩ := yields_pure h
        exact ⟨_, _, rfl, bare.set "modifiers" _ (by decide), rfl, .set _ _ _ (by decide),
          fun _ => .ofKind rfl⟩
      · have filled := child_fitting serves (by simp) rfl h
        exact ⟨_, _, rfl, bare.set "modifiers" _ (by decide), rfl, filled,
          fun _ => .ofKind (by rw [filled.kind]; rfl)⟩
  | binary segments =>
      obtain ⟨found, u, inner, rest⟩ := yields_bind h
      obtain ⟨_, v, read, last⟩ := yields_bind rest
      obtain rfl := yields_readAll read
      obtain ⟨rfl, rfl⟩ := yields_pure last
      have low : (compositeNode site .binaryLiteral).address.size + 2 ≤ bound := serves.low
      have above := near .binaryLiteral
      have filled := buildAll_fitting low (fun below part => serves.expression (by omega) part) inner
      exact ⟨_, _, rfl, composite _, rfl, filled.andThen (.readAll _ _), fun _ =>
        .ofKind (by rw [filled.kind]; rfl)⟩
  | _ =>
      obtain ⟨rfl, rfl⟩ := yields_pure h
      exact ⟨_, _, rfl, scalar _ _, rfl, .refl _ _, fun _ => .ofKind rfl⟩

theorem literal_tallied (serves : level.Serves limits bound site) {shape : Literal} {u : Unit}
    (h : (literal level site source shape).Yields limits s u t) : Tallied limits bound s t := by
  have low := serves.low
  obtain ⟨result, s₁, inner, last⟩ := yields_bind h
  obtain rfl := yields_emit last
  obtain ⟨node, roles, rfl, bare, uncapped, fitted, counted⟩ := literalNode_fitting serves inner
  exact (fitted.adjust (.withPosition _ _)).emitCounted bare uncapped (by omega)
    ((counted _).withPosition _)

/-! ## Calls -/

theorem functionReference_fitting (limits : Limits) (s : Session) (node : Node) (module? : Option String)
    (name : String) (arity : Nat) (low : site.size ≤ bound) :
    Fitting limits bound [.callee] node s (node.relate .callee site)
      (s.emit (functionReference site module? name arity)) := by
  apply Fitting.single node .callee site rfl
  have bare : ∀ qualified : String, ((((Node.make site .functionReference).set "name" name).set "arity"
      arity).set "qualified_name" qualified).Bare :=
    fun qualified => (((Node.Bare.make site .functionReference).set _ _ (by decide)).set _ _
      (by decide)).set _ _ (by decide)
  cases module? with
  | none => exact leaf_tallied (bare name) rfl low
  | some module => exact leaf_tallied ((bare _).set "module" module (by decide)) rfl low

theorem receiver_fitting (serves : level.Serves limits bound top)
    (near : node.address.size ≤ top.size + 2)
    (h : (receiver level node source).Yields limits s result t) :
    Fitting limits bound [.receiver] node s result t := by
  unfold receiver at h
  split at h
  · obtain ⟨rfl, rfl⟩ := yields_pure h
    exact (Fitting.refl node s).weaken (List.nil_subset _)
  · exact child_fitting serves near rfl h

theorem callee_fitting (serves : level.Serves limits bound top) (near : node.address.size ≤ top.size)
    {target : Callee} {arity : Nat} (h : (callee level node target arity).Yields limits s result t) :
    Fitting limits bound [.receiver, .callee] node s result t := by
  have low := serves.low
  have lower : (node.address.child Role.callee.label).size ≤ bound := by
    rw [Address.size_child]
    omega
  cases target with
  | named name =>
      obtain ⟨rfl, rfl⟩ := yields_callee_named h
      have named := (Fitting.set node "name" name (by decide)).trans
        (functionReference_fitting limits s _ none name arity lower) (by decide)
      exact named.weaken (by decide)
  | remote source name =>
      obtain ⟨middle, u, first, rfl, rfl⟩ := yields_callee_remote h
      have received := (Fitting.set node "name" name (by decide)).trans (receiver_fitting serves
        (show node.address.size ≤ top.size + 2 by omega) first) (by decide)
      exact received.trans (functionReference_fitting limits u middle (receiverModule? source) name arity
        lower) (by decide)
  | anonymous function => exact (child_fitting serves (by omega) rfl h).weaken (by decide)

theorem call_tallied (serves : level.Serves limits bound site) {kind : NodeKind}
    (calls : kind ∈ [.localCall, .remoteCall, .anonymousCall]) {target : Callee} {u : Unit}
    (h : (call level site source kind target items).Yields limits s u t) :
    Tallied limits bound s t := by
  have low := serves.low
  have uncapped : kind.isUncapped = true := by
    simp only [List.mem_cons, List.not_mem_nil, or_false] at calls
    rcases calls with rfl | rfl | rfl <;> rfl
  obtain ⟨middle, s₁, first, rest⟩ := yields_bind h
  obtain ⟨addresses, s₂, parts, last⟩ := yields_bind rest
  obtain rfl := yields_emit last
  have bare := (((Node.Bare.make site kind).withTags [.expression, .call]).set "arity"
    items.length (by decide)).withPosition source.position
  have called := callee_fitting serves (by simp) first
  obtain ⟨counted, tallied⟩ := eachPart_tallied
    (fun _ _ _ _ _ size part => serves.expression (by omega) part) parts
  have passed := Fitting.numbered middle .argument addresses (fun capped => nomatch capped) tallied
  have whole := called.trans passed (by decide)
  apply whole.emitCounted bare (by simpa using uncapped) (by simp; omega)
  -- The callee was emitted before the arguments, which leave it alone.
  obtain ⟨kept, refers⟩ := callee_refers (bare.related .callee) first
  have arity : middle.property? "arity" = some (.ofNat items.length) := by
    rw [kept, Node.property?_withPosition _ _ (by decide) (by decide)]
    exact Node.property?_set_self _ _ _
  apply Node.Counted.ofCall (by rw [whole.kind]; simpa using calls)
  constructor
  · rw [Node.related_numbered ((called.kept .argument (by decide)).trans (bare.targets _)), counted]
    exact .ofNat (by rw [Node.property?_relateAll, Node.property?_declare, arity])
  · intro address member
    rw [passed.related (by decide)] at member
    obtain ⟨reference, here, kind, stated, name, own, named⟩ := refers address member
    refine ⟨reference, (tallied.stands _ _ here).emit _, kind, ?_, name, ?_, named⟩
    · rw [Node.property?_relateAll, Node.property?_declare, stated, arity]
    · rw [Node.text?, Node.property?_relateAll, Node.property?_declare]
      exact own

/-! ## Heads of clauses and patterns -/

theorem patternChild_fitting (serves : level.Serves limits bound top)
    (near : node.address.size ≤ top.size + 2) (free : role.isCapped = false) {bindings : Bindings}
    {found : Node × Bindings}
    (h : (patternChild level node role source bindings).Yields limits s found t) :
    Fitting limits bound [role] node s found.1 t := by
  obtain ⟨more, u, inner, last⟩ := yields_bind h
  obtain ⟨rfl, rfl⟩ := yields_pure last
  apply Fitting.single node role _ free
  apply serves.pattern _ inner
  rw [Address.size_child]
  omega

/-- Patterns that share one address. -/
theorem foldlM_tallied {build : Bindings → Source → Build Bindings} {bindings found : Bindings}
    (step : ∀ {bindings source s found t},
      (build bindings source).Yields limits s found t → Tallied limits bound s t)
    (h : (items.foldlM build bindings).Yields limits s found t) : Tallied limits bound s t := by
  induction items generalizing bindings s with
  | nil =>
      obtain ⟨rfl, rfl⟩ := yields_pure h
      exact .done s
  | cons item items ih =>
      rw [List.foldlM_cons] at h
      obtain ⟨more, u, first, rest⟩ := yields_bind h
      exact (step first).next (ih rest)

theorem parameters_fitting (serves : level.Serves limits bound top)
    (near : node.address.size ≤ top.size + 2) (free : role.isCapped = false) {found : Node × Bindings}
    (h : (parameters level node role items).Yields limits s found t) :
    Fitting limits bound [role] node s found.1 t := by
  have few : ∀ targets : List Address, role.isCapped = true → targets.length ≤ limits.maxFanout := by
    intro targets capped
    rw [free] at capped
    cases capped
  by_cases ordered : role.isOrdered = true
  · obtain ⟨addresses, more, inner, rfl⟩ := yields_parameters_of_ordered ordered h
    obtain ⟨-, tallied⟩ := foldParts_tallied
      (fun _ _ _ _ _ _ _ size part => serves.pattern (by omega) part) inner
    exact .numbered node role _ (few _) tallied
  · obtain ⟨bindings, inner, rfl⟩ := yields_parameters_of_not_ordered ordered h
    exact .relateAll node role _ (few _)
      (foldlM_tallied (fun part => serves.pattern (by rw [Address.size_child]; omega) part) inner)

theorem clauseHead_fitting (serves : level.Serves limits bound top)
    (near : node.address.size ≤ top.size + 2) (free : role.isCapped = false)
    (other : ∀ r ∈ [role], r ∉ [Role.guard]) {clause : Clause} {found : Node × List String}
    (h : (clauseHead level node role clause).Yields limits s found t) :
    Fitting limits bound ([role] ++ [.guard]) node s found.1 t := by
  obtain ⟨middle, bindings, v, final, params, guard, rfl⟩ := yields_clauseHead h
  have first := (parameters_fitting serves near free params).andThen (.bindAll bindings none)
  exact first.trans (optionalChild_fitting serves (first.address ▸ near) rfl guard) other

theorem patternElements_fitting (serves : level.Serves limits bound top)
    (near : node.address.size ≤ top.size + 2) {bindings : Bindings} {found : Node × Bindings}
    (h : (patternElements level node items bindings).Yields limits s found t) :
    Fitting limits bound [.element] node s found.1 t := by
  obtain ⟨addresses, more, few, inner, rfl⟩ := yields_patternElements h
  obtain ⟨counted, tallied⟩ := foldParts_tallied
    (fun _ _ _ _ _ _ _ size part => serves.pattern (by omega) part) inner
  exact .numbered node .element _ (fun _ => counted ▸ few) tallied

theorem patternEntry_tallied (serves : level.Serves limits bound top) (near : site.size ≤ top.size + 2)
    {bindings found : Bindings}
    (h : (patternEntry level site source bindings).Yields limits s found t) :
    Tallied limits bound s t := by
  have low := serves.low
  obtain ⟨key, value, v, w, -, keyed, valued, rfl⟩ := yields_patternEntry h
  have bare := (Node.Bare.make site .mapEntry).withTags [.composite, .pattern]
  have first := Fitting.single ((Node.make site .mapEntry).withTags [.composite, .pattern]) .key
    (site.child Role.key.label) rfl (serves.pattern (by simp; omega) keyed)
  have whole := first.trans (Fitting.single _ .value (site.child Role.value.label) rfl
    (serves.pattern (by simp; omega) valued)) (by decide)
  exact (whole.adjust (.withPosition _ source.position)).emitCounted bare rfl
    (show site.size ≤ bound by omega) (entryNode_counted _ _ _ _ _)

theorem patternEntries_fitting (serves : level.Serves limits bound top)
    (near : node.address.size ≤ top.size) {bindings : Bindings} {found : Node × Bindings}
    (h : (patternEntries level node items bindings).Yields limits s found t) :
    Fitting limits bound [.entry] node s found.1 t := by
  obtain ⟨addresses, more, few, inner, rfl⟩ := yields_patternEntries h
  obtain ⟨counted, tallied⟩ := foldParts_tallied
    (fun _ _ _ _ _ _ _ size part => patternEntry_tallied serves (by omega) part) inner
  exact .numbered node .entry _ (fun _ => counted ▸ few) tallied

theorem patternNode_bare (site : Address) (kind : NodeKind) (source : Source) :
    (patternNode site kind source).Bare :=
  ((Node.Bare.make site kind).withTags _).withPosition _

@[simp] theorem patternNode_kind (site : Address) (kind : NodeKind) (source : Source) :
    (patternNode site kind source).kind = kind := by
  simp [patternNode]

/-- The node of a pattern is emitted once it is fitted. -/
theorem emitPattern_tallied (low : site.size ≤ bound) {roles : List Role} {kind : NodeKind}
    (common : kind.isCommon = true)
    (fitted : Fitting limits bound roles (patternNode site kind source) s result t) :
    Tallied limits bound s (t.emit result) :=
  fitted.emit (patternNode_bare site kind source) (by simpa using common) (by simpa using low)

theorem signedNumber?_common {number : Source} {kind : NodeKind} {value : Property}
    (h : signedNumber? number = some (kind, value)) : kind.isCommon = true := by
  unfold signedNumber? at h
  split at h
  · cases h
    rfl
  · cases h
    rfl
  · cases h

theorem patternStep_tallied (serves : level.Serves limits bound site)
    {sameDepth : Address → Source → Build Unit}
    (here : ∀ {s t}, (sameDepth site source).Yields limits s () t → Tallied limits bound s t)
    {bindings found : Bindings}
    (h : (patternStep level sameDepth site source bindings).Yields limits s found t) :
    Tallied limits bound s t := by
  have low : site.size ≤ bound := Nat.le_trans (Nat.le_add_right _ 2) serves.low
  have near : ∀ kind, (patternNode site kind source).address.size ≤ site.size := fun kind => by simp
  have near' : ∀ kind, (patternNode site kind source).address.size ≤ site.size + 2 := fun kind => by
    simp
  have run := yields_patternStep h
  generalize source.pattern = shape at run
  cases run with
  | literal inner => exact literal_tallied serves inner
  | value inner => exact here inner
  | @signed _ kind value stated =>
    have bare := (((Node.Bare.make site kind).withTags [.literal, .pattern]).set "value"
      value (by decide)).withPosition source.position
    exact leaf_tallied bare (by simpa using signedNumber?_common stated) (by simpa using low)
  | @symbol name =>
    have named : Fitting limits bound [] (patternNode site .variablePattern source) s
        ((((patternNode site .variablePattern source).withTags [.binding]).set "name" name).set
          "ignored" (isIgnored name)) s :=
      ((Fitting.withTags _ _).adjust (.set _ "name" _ (by decide))).adjust (.set _ "ignored" _ (by decide))
    exact emitPattern_tallied low rfl named
  | wildcard => exact emitPattern_tallied low rfl (.refl _ _)
  | pin _ inner =>
    have pinned := (Fitting.set _ _ _ (by decide)).trans
      (child_fitting serves (near' _) rfl inner) (by decide)
    exact emitPattern_tallied low rfl pinned
  | tuple inner | list inner =>
    exact emitPattern_tallied low rfl (patternElements_fitting serves (near' _) inner)
  | listTail inner tail =>
    have filled := patternElements_fitting serves (near' _) inner
    have tailed := patternChild_fitting serves (filled.address ▸ near' _) rfl tail
    exact emitPattern_tallied low rfl (filled.trans tailed (by decide))
  | map inner => exact emitPattern_tallied low rfl (patternEntries_fitting serves (near _) inner)
  | @struct _ _ middle _ _ _ _ _ _ inner name fields =>
    have typed := patternChild_fitting serves (near' _) rfl inner
    have lower : middle.address.size ≤ site.size := typed.address ▸ near _
    split at name <;> subst name
    · have filled := patternEntries_fitting serves
        (show (middle.set _ _).address.size ≤ site.size from lower) fields
      exact emitPattern_tallied low rfl ((typed.adjust (.set _ _ _ (by decide))).trans filled (by decide))
    · exact emitPattern_tallied low rfl (typed.trans (patternEntries_fitting serves lower fields) (by decide))
  | binary inner =>
    have filled := buildAll_fitting (by simpa using serves.low)
      (fun below part => serves.pattern (by have := near .binaryPattern; omega) part) inner
    exact emitPattern_tallied low rfl (filled.andThen (.readAll _ _))
  | both inner whole =>
    have first := patternChild_fitting serves (near' _) rfl inner
    have second := patternChild_fitting serves (first.address ▸ near' _) rfl whole
    exact emitPattern_tallied low rfl (first.trans second (by decide))
  | textHead inner =>
    have tailed := patternChild_fitting serves
      (show (Node.set _ _ _).address.size ≤ site.size + 2 from near' _) rfl inner
    exact emitPattern_tallied low rfl ((Fitting.set _ _ _ (by decide)).trans tailed (by decide))
  | fallback inner value =>
    have first := patternChild_fitting serves (near' _) rfl inner
    have second := child_fitting serves (first.address ▸ near' _) rfl value
    exact emitPattern_tallied low rfl (first.trans second (by decide))

/-! ## Branches -/

/-- A clause has a frame of its own, gets its body last and is then emitted. Its head stays as it
was. -/
theorem emitClause_tallied (serves : level.Serves limits bound top)
    (near : node.address.size ≤ top.size + 2) (bare : node.Bare) (common : node.kind.isCommon = true)
    {kind : ScopeKind} {roles : List Role} {middle : Node} {part : Option Source} {u : Session}
    (headed : Fitting limits bound roles node (s.enter kind) middle u)
    (other : ∀ role ∈ roles, role ∉ [Role.body])
    (h : (optionalChild level middle .body part).Yields limits u result t) :
    Tallied limits bound s { t.emit result with current := s.current } ∧
      Session.Stands { t.emit result with current := s.current } node.address result ∧
      ∀ role, role ≠ .body → result.related role = middle.related role := by
  have low := serves.low
  have bodied := optionalChild_fitting serves (headed.address ▸ near) rfl h
  have whole := headed.trans bodied other
  refine ⟨(whole.emit bare common (by omega)).framed, ?_, fun role ne => optionalChild_related ne h⟩
  rw [← whole.address]
  exact t.stands_emit result

/-- The clause of a branch has a single pattern. -/
theorem branchClause_tallied (serves : level.Serves limits bound top) (near : site.size ≤ top.size + 2)
    {clause : Clause} (single : clause.arity = 1) {u : Unit}
    (h : (branchClause level site clause).Yields limits s u t) : Tallied limits bound s t := by
  have low := serves.low
  obtain ⟨middle, names, v, final, w, head, body, rfl⟩ := yields_branchClause h
  have bare := ((Node.Bare.make site .caseClause).withTags [.controlFlow]).withPosition clause.position
  have headed := clauseHead_fitting serves (by simpa using near) rfl (by decide) head
  have bodied := optionalChild_fitting serves (headed.address ▸ by simpa using near) rfl body
  have whole := headed.trans bodied (by decide)
  have patterns : (final.related .pattern).length = 1 := by
    rw [bodied.related (by decide), clauseHead_related (bare.targets _) (.inr single) (by decide) head, single]
  have sort : final.kind = .caseClause := by rw [whole.kind]; simp
  refine (whole.emitCounted bare (by simp; rfl) (by simp; omega) ?_).framed
  unfold Node.Counted
  rwa [sort]

theorem branchClauses_fitting (serves : level.Serves limits bound top)
    (near : node.address.size ≤ top.size)
    (h : (branchClauses level node role items).Yields limits s result t) :
    Fitting limits bound [role] node s result t ∧
      (result.related role).length ≤ (node.related role).length + limits.maxFanout := by
  obtain ⟨clauses, addresses, -, single, few, parts, rfl⟩ := yields_branchClauses h
  obtain ⟨counted, tallied⟩ := eachPart_tallied
    (fun _ clause member _ _ size part =>
      branchClause_tallied serves (by omega) (single clause member) part) parts
  refine ⟨.numbered node role _ (fun _ => counted ▸ few) tallied, ?_⟩
  have grown := (node.declare role).length_related_relateAll_le role addresses
  rw [Node.related_congr role (node.relation_declare role role)] at grown
  omega

theorem branch_fitting (serves : level.Serves limits bound top) (near : node.address.size ≤ top.size + 2)
    (free : role.isCapped = false) {part : Option Source}
    (h : (branch level node role part).Yields limits s result t) :
    Fitting limits bound [role] node s result t := by
  cases part with
  | none =>
      obtain ⟨rfl, rfl⟩ := yields_pure h
      exact (Fitting.refl node s).weaken (List.nil_subset _)
  | some source =>
      obtain ⟨u, inner, rfl⟩ := yields_inScope h
      exact (child_fitting serves near free inner).framed

theorem controlNode_bare (site : Address) (kind : NodeKind) (source : Source) :
    (controlNode site kind source).Bare :=
  ((Node.Bare.make site kind).withTags _).withPosition _

@[simp] theorem controlNode_kind (site : Address) (kind : NodeKind) (source : Source) :
    (controlNode site kind source).kind = kind := by
  simp [controlNode]

/-- The node of a control flow expression is emitted once it is fitted. -/
theorem emitControl_tallied (low : site.size ≤ bound) {roles : List Role} {kind : NodeKind}
    (common : kind.isCommon = true)
    (fitted : Fitting limits bound roles (controlNode site kind source) s result t) :
    Tallied limits bound s (t.emit result) :=
  fitted.emit (controlNode_bare site kind source) (by simpa using common) (by simpa using low)

theorem conditional_tallied (serves : level.Serves limits bound site) {negated : Bool}
    {condition branches : Source} {u : Unit}
    (h : (conditional level site source negated condition branches).Yields limits s u t) :
    Tallied limits bound s t := by
  have low := serves.low
  obtain ⟨n₁, s₁, n₂, s₂, n₃, s₃, first, second, third, rfl⟩ := yields_conditional h
  have tested := child_fitting serves (by simp) rfl first
  have chosen := tested.trans (branch_fitting serves (tested.address ▸ by simp) rfl second) (by decide)
  have whole := chosen.trans (branch_fitting serves (chosen.address ▸ by simp) rfl third) (by decide)
  exact emitControl_tallied (by omega) (by cases negated <;> rfl) whole

theorem caseExpression_tallied (serves : level.Serves limits bound site) {subject branches : Source}
    {u : Unit} (h : (caseExpression level site source subject branches).Yields limits s u t) :
    Tallied limits bound s t := by
  have low := serves.low
  obtain ⟨n₁, s₁, first, rest⟩ := yields_bind h
  obtain ⟨n₂, s₂, second, last⟩ := yields_bind rest
  obtain rfl := yields_emit last
  have matched := child_fitting serves (by simp) rfl first
  have clauses := (branchClauses_fitting serves (matched.address ▸ by simp) second).1
  exact emitControl_tallied (by omega) rfl (matched.trans clauses (by decide))

theorem condClause_tallied (serves : level.Serves limits bound top) (near : site.size ≤ top.size + 2)
    {clause : Clause} {u : Unit} (h : (condClause level site clause).Yields limits s u t) :
    Tallied limits bound s t := by
  obtain ⟨middle, v, final, w, first, second, rfl⟩ := yields_condClause h
  have bare := ((Node.Bare.make site .condClause).withTags [.controlFlow]).withPosition clause.position
  have tested := optionalChild_fitting serves (by simpa using near) rfl first
  exact (emitClause_tallied serves (by simpa using near) bare (by simp; rfl) tested (by decide) second).1

theorem condExpression_tallied (serves : level.Serves limits bound site) {branches : Source} {u : Unit}
    (h : (condExpression level site source branches).Yields limits s u t) :
    Tallied limits bound s t := by
  have low := serves.low
  obtain ⟨clauses, addresses, v, -, few, parts, rfl⟩ := yields_condExpression h
  obtain ⟨counted, tallied⟩ := eachPart_tallied
    (fun _ _ _ _ _ size part => condClause_tallied serves (by omega) part) parts
  exact emitControl_tallied (by omega) rfl (.numbered _ .clause _ (fun _ => counted ▸ few) tallied)

/-! ## Chains of generators -/

theorem generator_tallied (serves : level.Serves limits bound top) (near : site.size ≤ top.size + 2)
    (free : role.isCapped = false) (other : ∀ r ∈ [role], r ∉ [Role.pattern] ++ [Role.guard]) {u : Unit}
    (h : (generator level role site source).Yields limits s u t) : Tallied limits bound s t := by
  have low := serves.low
  obtain ⟨parts, n₁, v, n₂, bindings, w, n₃, x, -, valued, matched, guarded, rfl⟩ := yields_generator h
  have bare := (((Node.Bare.make site .generator).withTags [.controlFlow, .binding]).set
    "binary" parts.isBinary (by decide)).withPosition source.position
  have first := (child_fitting serves (by simpa using near) free valued).logged
  have second := (patternChild_fitting serves (first.address ▸ by simpa using near) rfl matched).andThen
    (.bindAll bindings (some v.logged))
  have third := second.trans (optionalChild_fitting serves
    (second.address ▸ first.address ▸ by simpa using near) rfl guarded) (by decide)
  exact (first.trans third other).emit bare (by simp; rfl) (by simp; omega)

/-- The clauses of a chain fill two roles between them. -/
theorem chainClauses_fitting {isGenerator : Source → Bool}
    {buildGenerator buildOther : Address → Source → Build Unit} {otherwise : Role}
    (generators : ∀ {address source s t}, address.size = site.size + 2 →
      (buildGenerator address source).Yields limits s () t → Tallied limits bound s t)
    (others : ∀ {address source s t}, address.size = site.size + 2 →
      (buildOther address source).Yields limits s () t → Tallied limits bound s t)
    (differs : otherwise ≠ .generator) (free : otherwise.isCapped = false) (here : node.address = site)
    {index : Nat}
    (h : (chainClauses isGenerator buildGenerator otherwise buildOther index items node).Yields
      limits s result t) :
    Fitting limits bound [.generator, otherwise] node s result t ∧
      (result.related .generator).length + (result.related otherwise).length ≤
        (node.related .generator).length + (node.related otherwise).length + items.length := by
  induction items generalizing index node s with
  | nil =>
      obtain ⟨rfl, rfl⟩ := yields_pure h
      exact ⟨(Fitting.refl node s).weaken (List.nil_subset _), Nat.le_refl _⟩
  | cons clause items ih =>
      -- Either way the clause becomes one more target in one of the two roles.
      have choice : ∃ role ∈ [.generator, otherwise], ∃ u, Tallied limits bound s u ∧
          (chainClauses isGenerator buildGenerator otherwise buildOther (index + 1) items
            (node.relate role (node.address.at (role, some index)))).Yields limits u result t := by
        have size : ∀ role : Role, (node.address.at (role, some index)).size = site.size + 2 := by
          intro role
          rw [here]
          exact Address.size_indexed site role index
        obtain ⟨u, first, rest⟩ := yields_chainClauses_cons h
        by_cases arrow : isGenerator clause = true
        · simp only [arrow, if_true] at first rest
          exact ⟨.generator, by simp, u, generators (size _) first, rest⟩
        · simp only [arrow] at first rest
          exact ⟨otherwise, by simp, u, others (size _) first, rest⟩
      obtain ⟨role, known, u, tallied, rest⟩ := choice
      obtain ⟨fitted, counted⟩ := ih (show (node.relate role _).address = site from here) rest
      constructor
      · refine ⟨fitted.address, fitted.kind, fitted.tag, ?_, ?_, tallied.next fitted.tallied⟩
        · intro other new
          rw [fitted.kept other new]
          exact node.relation_relate_of_ne (fun same : other = role => new (same ▸ known)) _
        · intro other member capped
          simp only [List.mem_cons, List.not_mem_nil, or_false] at member
          rcases member with rfl | rfl
          · cases capped
          · rw [free] at capped
            cases capped
      · have grown := node.length_related_relate_le role (node.address.at (role, some index))
        have kept : ∀ other, other ≠ role →
            ((node.relate role (node.address.at (role, some index))).related other) =
              node.related other :=
          fun other ne => Node.related_congr other (node.relation_relate_of_ne ne _)
        rw [List.length_cons]
        simp only [List.mem_cons, List.not_mem_nil, or_false] at known
        rcases known with rfl | rfl
        · rw [kept otherwise differs] at counted
          omega
        · rw [kept .generator differs.symm] at counted
          omega

theorem withExpression_tallied (serves : level.Serves limits bound site)
    (deeper : inner.Serves limits bound site) {clauses : List Source} {options : Source} {u : Unit}
    (h : (withExpression level inner site source clauses options).Yields limits s u t) :
    Tallied limits bound s t := by
  have low : (controlNode site .withExpression source).address.size ≤ bound := by
    rw [controlNode_address]
    exact Nat.le_trans (Nat.le_add_right _ 2) serves.low
  have bare := controlNode_bare site .withExpression source
  obtain ⟨n₁, v, n₂, w, few, chained, body, rest⟩ := yields_withExpression h
  have declared : Fitting limits bound [] (controlNode site .withExpression source)
      (s.enter .block) _ (s.enter .block) := .declare _ .generator
  have here := declared.address.trans (controlNode_address site .withExpression source)
  obtain ⟨filled, counted⟩ := chainClauses_fitting
    (fun size part => generator_tallied deeper (Nat.le_of_eq size) rfl (by decide) part)
    (fun size part => serves.expression (by omega) part) (by decide) rfl here chained
  have bodied := optionalChild_fitting serves (by rw [filled.address, here]; omega) rfl body
  have fitted := ((declared.trans filled (by decide)).trans bodied (by decide)).framed
  -- The body and the clauses behind `else` leave the roles of the chain alone.
  rw [declared.related (by decide), declared.related (by decide), bare.related, bare.related] at counted
  rw [← bodied.related (by decide), ← bodied.related (by decide)] at counted
  have unused : n₂.related .elseBranch = [] := by
    rw [fitted.related (by decide), bare.related]
  obtain ⟨-, rfl⟩ | ⟨alternatives, n₃, x, -, fallback, rfl⟩ := rest
  · apply fitted.emitChain bare (controlNode_kind _ _ _) low
    · simpa using Nat.le_trans counted (by simpa using few)
    · simp [unused]
  · obtain ⟨branches, number⟩ := branchClauses_fitting serves
      (Nat.le_of_eq (by rw [fitted.address, controlNode_address])) fallback
    apply (fitted.trans branches (by decide)).emitChain bare (controlNode_kind _ _ _) low
    · rw [branches.related (by decide), branches.related (by decide)]
      simpa using Nat.le_trans counted (by simpa using few)
    · simpa [unused] using number

/-- The qualifiers of a comprehension are counted, and its body leaves their roles alone. -/
theorem qualifiers_fitting (serves : level.Serves limits bound site)
    (deeper : inner.Serves limits bound site) {qualifiers : List Source} {options : Source}
    (few : qualifiers.length ≤ limits.maxFanout) (here : node.address = site)
    (generators : node.related .generator = []) (filters : node.related .filter = [])
    (h : (inScope .comprehension do
      let node ← chainClauses Generator.isQualifier (generator inner .enumerable) .filter
        level.expression 0 qualifiers (node.declare .generator)
      match options.keyword? "reduce" with
      | some _ => branchClauses level node .clause (clauseItems (options.keyword? "do"))
      | none => optionalChild level node .body (options.keyword? "do")).Yields limits s result t) :
    Fitting limits bound ([.generator, .filter] ++ [.clause, .body]) node s result t ∧
      (result.related .generator).length + (result.related .filter).length ≤ limits.maxFanout := by
  obtain ⟨v, chain, rfl⟩ := yields_inScope h
  obtain ⟨n₂, s₃, chained, body⟩ := yields_bind chain
  have declared : Fitting limits bound [] node (s.enter .comprehension) _ (s.enter .comprehension) :=
    .declare node .generator
  obtain ⟨filled, counted⟩ := chainClauses_fitting
    (fun size part => generator_tallied deeper (Nat.le_of_eq size) rfl (by decide) part)
    (fun size part => serves.expression (by omega) part) (by decide) rfl
    (declared.address.trans here) chained
  rw [declared.related (by decide), declared.related (by decide), generators, filters] at counted
  have last : Fitting limits bound [.clause, .body] n₂ s₃ result v := by
    have near : n₂.address.size = site.size := by rw [filled.address, declared.address, here]
    split at body
    · exact (branchClauses_fitting serves (Nat.le_of_eq near) body).1.weaken (by decide)
    · exact (optionalChild_fitting serves (by omega) rfl body).weaken (by decide)
  refine ⟨((declared.trans filled (by decide)).trans last (by decide)).framed, ?_⟩
  rw [last.related (by decide), last.related (by decide)]
  simpa using Nat.le_trans counted (by simpa using few)

theorem comprehension_tallied (serves : level.Serves limits bound site)
    (deeper : inner.Serves limits bound site) {qualifiers : List Source} {options : Source} {u : Unit}
    (h : (comprehension level inner site source qualifiers options).Yields limits s u t) :
    Tallied limits bound s t := by
  have low : (controlNode site .comprehension source).address.size ≤ bound := by
    rw [controlNode_address]
    exact Nat.le_trans (Nat.le_add_right _ 2) serves.low
  have bare := controlNode_bare site .comprehension source
  obtain ⟨n₁, v, n₂, w, n₃, x, few, into, reduce, framed, rfl⟩ := yields_comprehension h
  have first := optionalChild_fitting serves (by simp) rfl into
  have opened := first.trans (optionalChild_fitting serves (first.address ▸ by simp) rfl reduce)
    (by decide)
  have here : n₂.address = site := by rw [opened.address, controlNode_address]
  have generators : n₂.related .generator = [] := by rw [opened.related (by decide), bare.related]
  have filters : n₂.related .filter = [] := by rw [opened.related (by decide), bare.related]
  split at framed
  · obtain ⟨fitted, counted⟩ := qualifiers_fitting serves deeper few
      (show (n₂.set _ _).address = site from here) generators filters framed
    exact ((opened.adjust (.set _ _ _ (by decide))).trans fitted (by decide)).emitQualifiers bare
      (controlNode_kind _ _ _) low counted
  · obtain ⟨fitted, counted⟩ := qualifiers_fitting serves deeper few here generators filters framed
    exact (opened.trans fitted (by decide)).emitQualifiers bare (controlNode_kind _ _ _) low counted

/-! ## Closures -/

/-- The clause of a closure stands, with all its parameters. -/
theorem closureClause_tallied (serves : level.Serves limits bound top) (near : site.size ≤ top.size + 2)
    {clause : Clause} {u : Unit} (h : (closureClause level site clause).Yields limits s u t) :
    Tallied limits bound s t ∧
      ∃ node, t.Stands site node ∧ (node.related .parameter).length = clause.arity := by
  obtain ⟨middle, names, v, final, w, head, body, rfl⟩ := yields_closureClause h
  have bare := ((Node.Bare.make site .anonymousFunctionClause).withTags [.closure]).withPosition
    clause.position
  have headed := (clauseHead_fitting serves (by simpa using near) rfl (by decide) head).andThen
    (.same (v.boundByClosure_nodes names) (v.boundByClosure_reports names)
      (v.boundByClosure_diagnostics names))
  have counted := clauseHead_related (bare.targets _) (.inl rfl) (by decide) head
  obtain ⟨tallied, here, kept⟩ := emitClause_tallied serves (by simpa using near) bare (by simp; rfl) headed
    (by decide) body
  exact ⟨tallied, final, by simpa using here, by rw [kept .parameter (by decide)]; exact counted⟩

/-- A closure is reported on, its captures emitted, and then its node. That node may still be
changed as long as it keeps its captures. Closing adds nothing to it but captures. -/
theorem closeClosure_tallied {start final : Node} {roles : List Role} {roots : List Address} {u : Session}
    (fitted : Fitting limits bound roles start (s.openClosure site) node t) (bare : start.Bare)
    (unused : .captures ∉ roles) (isClosure : start.kind.isClosure = true) (here : start.address = site)
    (low : site.size + 2 ≤ bound) (built : Built limits roots (s.openClosure site) t)
    (h : (closeClosure node).Yields limits t result u) (address : final.address = result.address)
    (kind : final.kind = result.kind)
    (tag : final.property? "original_tag" = result.property? "original_tag")
    (kept : ∀ role, role ≠ .body → final.relation role = result.relation role)
    (counted : ∀ captures, result = (node.declare .captures).relateAll .captures captures →
      final.Counted t.Stands) : Tallied limits bound s (u.emit final) := by
  obtain ⟨opened, others, top, closure⟩ := opened_closure built
  obtain ⟨report, reported, rfl, rfl⟩ := yields_closeClosure top h
  have place : final.address = site := by
    rw [address, Node.relateAll_address, Node.declare_address, fitted.address, here]
  have sort : final.kind = start.kind := by
    rw [kind, Node.relateAll_kind, ← fitted.kind]
    rfl
  have others : ∀ role, role ≠ .body → role ≠ .captures → final.relation role = node.relation role := by
    intro role notBody notCaptures
    rw [kept role notBody, Node.relation_relateAll_of_ne _ notCaptures, Node.relation_declare]
  have fits : final.Fits limits := by
    constructor
    · intro role capped
      have notBody : role ≠ .body := fun same => by rw [same] at capped; cases capped
      have notCaptures : role ≠ .captures := fun same => by rw [same] at capped; cases capped
      rw [Node.related_congr role (others role notBody notCaptures)]
      exact fitted.fits bare role capped
    all_goals
      intro other
      rw [← sort, other] at isClosure
      cases isClosure
  have describes : report.Describes final := by
    constructor
    · rw [place, Tracker.report_closure reported, closure]
    · have empty : node.relation .captures = .empty true := (fitted.kept .captures unused).trans (bare.targets _)
      rw [Node.related_congr _ (kept .captures (by decide)),
        Node.related_relateAll_of_ordered _ _ (by rw [Node.relation_declare, empty]; rfl),
        ← Node.relation_targets, Node.relation_declare, empty]
      rfl
  have tally := Tally.closure fits (sort ▸ isClosure) describes (Tracker.report_fits reported)
    (place ▸ low)
  have untagged : final.Untagged := by
    rw [Node.Untagged, tag, Node.property?_relateAll, Node.property?_declare]
    exact fitted.untagged bare
  have diagnosed : Diagnosed (report.captureNodes ++ [final]) [] := by
    apply Diagnosed.known
    intro n member
    rcases List.mem_append.mp member with captured | last
    · obtain ⟨index, capture, -, rfl⟩ := ClosureReport.mem_captureNodes captured
      exact ⟨by rw [report.captureNode_kind]; decide, report.captureNode_untagged index capture⟩
    · rw [List.mem_singleton.mp last]
      refine ⟨fun unknown => ?_, untagged⟩
      rw [← sort, unknown] at isClosure
      cases isClosure
  have before : Tallied limits bound s t := fitted.tallied
  refine before.next ⟨_, _, ?_, ?_, tally, ?_, [], ?_, diagnosed⟩
  · simp [Session.emit]
  · simp [Session.emit]
  · intro n member
    rcases List.mem_append.mp member with captured | last
    · obtain ⟨index, capture, -, rfl⟩ := ClosureReport.mem_captureNodes captured
      exact report.captureNode_counted index capture _
    · rw [List.mem_singleton.mp last]
      exact (counted _ rfl).mono fun a m here => ⟨by simp [Session.emit, here.1], here.2⟩
  · simp [Session.emit]

theorem anonymousFunction_tallied (sound : level.Sound) (serves : level.Serves limits bound site)
    {u : Unit} (h : (anonymousFunction level site source items).Yields limits s u t) :
    Tallied limits bound s t := by
  have low := serves.low
  obtain ⟨clauses, arity, addresses, v, w, final, -, ⟨occupied, few, same⟩, parts, closed, rfl⟩ :=
    yields_anonymousFunction h
  have bare := ((((Node.Bare.make site .anonymousFunction).withTags [.expression, .closure]).set
    "arity" arity (by decide)).set "clause_count" clauses.length (by decide)).withPosition source.position
  obtain ⟨-, built⟩ :=
    eachPart_built (fun _ _ _ _ _ part => (closureClause_framed sound part).built) parts
  obtain ⟨counted, tallied⟩ := eachPart_tallied
    (fun _ _ _ _ _ size part => (closureClause_tallied serves (Nat.le_of_eq size) part).1) parts
  have standing : ∀ address ∈ addresses, ∃ clause ∈ clauses, ∃ node, v.Stands address node ∧
      (node.related .parameter).length = clause.arity :=
    eachPart_stands (fun _ _ _ _ size part =>
      (closureClause_tallied serves (Nat.le_of_eq size) part).imp_left Tallied.stands) parts
  have fitted := Fitting.numbered (((((Node.make site .anonymousFunction).withTags
    [.expression, .closure]).set "arity" arity).set "clause_count" clauses.length).withPosition
    source.position) .clause addresses (fun _ => counted ▸ few) tallied
  refine closeClosure_tallied fitted bare (by decide) (by simp; rfl) (by simp) low built closed rfl rfl
    rfl (fun _ _ => rfl) fun captures closed => .ofFunction (.inl (by simp [closed])) ?_
  apply countsClauses Clause.arity occupied same counted standing
  · rw [closed, Node.related_congr .clause (Node.relation_relateAll_of_ne _ (by decide) _),
      Node.related_congr .clause (Node.relation_declare _ _ _)]
    exact Node.related_numbered (bare.targets .clause) addresses
  · rw [closed, Node.property?_relateAll, Node.property?_declare, Node.property?_relateAll,
      Node.property?_declare, Node.property?_withPosition _ _ (by decide) (by decide)]
    exact Node.property?_set_self _ _ _
  · rw [closed, Node.property?_relateAll, Node.property?_declare, Node.property?_relateAll,
      Node.property?_declare, Node.property?_withPosition _ _ (by decide) (by decide),
      Node.property?_set_of_ne _ _ (by decide)]
    exact Node.property?_set_self _ _ _

theorem functionCapture_tallied (serves : level.Serves limits bound site) {f : CapturedFunction}
    {u : Unit} (h : (functionCapture level site source f).Yields limits s u t) :
    Tallied limits bound s t := by
  have low := serves.low
  have bare := ((((Node.Bare.make site .functionCapture).withTags [.expression, .closure]).set
    "arity" f.arity (by decide)).withPosition source.position).set "name" f.name (by decide)
  have finish : ∀ {n final : Node} {s t : Session}, n.address = site → n.Bare →
      n.kind = .functionCapture → Fitting limits bound [.receiver] n s final t →
      Tallied limits bound s
        ((t.emit (functionReference (site.child Role.callee.label) (f.receiver.bind receiverModule?)
          f.name f.arity)).emit (final.relate .callee (site.child Role.callee.label))) := by
    intro n final s t here bare kind received
    have referred := functionReference_fitting limits t final (f.receiver.bind receiverModule?) f.name
      f.arity (show (site.child Role.callee.label).size ≤ bound by simp; omega)
    exact (received.trans referred (by decide)).emit bare (by rw [kind]; rfl) (by rw [here]; omega)
  obtain ⟨n₁, s₁, ⟨-, rfl, rfl⟩ | ⟨target, -, received⟩, rfl⟩ := yields_functionCapture h
  · refine finish (by simp) bare (by simp) (Fitting.weaken ?_ (List.nil_subset _))
    split
    · exact .set _ _ _ (by decide)
    · exact .refl _ _
  · refine finish (by simp) bare (by simp) ((receiver_fitting serves (by simp) received).adjust ?_)
    split
    · exact .set _ _ _ (by decide)
    · exact .refl _ _

theorem shorthandClosure_tallied (sound : level.Sound) (serves : level.Serves limits bound site)
    {body : Source} {u : Unit} (h : (shorthandClosure level site source body).Yields limits s u t) :
    Tallied limits bound s t := by
  have low := serves.low
  obtain ⟨v, closed, w, inner, closing, rfl⟩ := yields_shorthandClosure h
  obtain ⟨gain, course⟩ := sound.expression inner
  have bare := ((Node.Bare.make site .shorthandClosure).withTags [.expression, .closure]).withPosition
    source.position
  have near : (site.child Role.body.label).size ≤ site.size + 4 := by
    rw [Address.size_child]
    omega
  have tallied := (serves.expression near inner).counted
  have dressed : ∀ role, role ≠ .body →
      ((closed.set "arity" (v.placeholders.head?.getD 0)).relate .body
        (site.child Role.body.label)).relation role =
        closed.relation role := fun role notBody => Node.relation_relate_of_ne _ notBody _
  exact closeClosure_tallied ((Fitting.refl _ _).andThen tallied) bare (by decide) (by simp; rfl)
    (by simp) low ⟨gain, .counted course⟩ closing rfl rfl
    (Node.property?_set_of_ne _ _ (by decide)) dressed fun _ same =>
      .ofKind (show closed.kind.isCounted = false by rw [same]; simp; rfl)

theorem capture_tallied (sound : level.Sound) (serves : level.Serves limits bound site) {body : Source}
    {u : Unit} (h : (capture level site source body).Yields limits s u t) :
    Tallied limits bound s t := by
  unfold capture at h
  split at h
  · exact functionCapture_tallied serves h
  · exact shorthandClosure_tallied sound serves h

theorem placeholder_inRange {index : Int64} {u : Unit}
    (h : (placeholder site source index).Yields limits s u t) :
    1 ≤ index.toInt ∧ index.toInt ≤ limits.maxCaptures := by
  obtain ⟨l, s₁, reading, rest⟩ := yields_bind h
  obtain ⟨rfl, rfl⟩ := yields_read reading
  dsimp only at rest
  split at rest
  · rename_i inRange
    simp only [Bool.and_eq_true, decide_eq_true_eq] at inRange
    omega
  · obtain ⟨_, _, failed, -⟩ := yields_bind rest
    exact absurd failed not_yields_throw

theorem placeholder_tallied (low : site.size ≤ bound) {index : Int64} {u : Unit}
    (h : (placeholder site source index).Yields limits s u t) : Tallied limits bound s t := by
  have inRange := placeholder_inRange h
  obtain ⟨greatest, others, -, rfl⟩ := yields_placeholder h
  have bare := (((Node.Bare.make site .capturePlaceholder).withTags [.expression]).set "index"
    index (by decide)).withPosition source.position
  have seen : Tallied limits bound s { s with placeholders := max greatest index :: others } :=
    .same rfl rfl rfl
  apply seen.emit
  · constructor
    · intro role _
      rw [bare.related]
      exact Nat.zero_le _
    · simp
    · simp
    · intro _
      refine ⟨index, ?_, inRange⟩
      rw [Node.property?_withPosition _ _ (by decide) (by decide)]
      exact OrderedMap.get?_insert_self _ _ _
  · simp
    rfl
  · exact bare.untagged
  · simpa using low
  · exact .ofKind (by simp; rfl)

/-! ## Definitions -/

/-- The clause of a function stands, with all its parameters. -/
theorem functionClause_tallied (serves : level.Serves limits bound top) (near : site.size ≤ top.size + 2)
    {clause : Clause} {u : Unit} (h : (functionClause level site clause).Yields limits s u t) :
    Tallied limits bound s t ∧
      ∃ node, t.Stands site node ∧ (node.related .parameter).length = clause.arity := by
  obtain ⟨middle, names, v, final, w, head, body, rfl⟩ := yields_functionClause h
  have bare := (Node.Bare.make site .functionClause).withPosition clause.position
  have headed := clauseHead_fitting serves (by simpa using near) rfl (by decide) head
  have counted := clauseHead_related (bare.targets _) (.inl rfl) (by decide) head
  obtain ⟨tallied, here, kept⟩ := emitClause_tallied serves (by simpa using near) bare (by simp; rfl) headed
    (by decide) body
  exact ⟨tallied, final, by simpa using here, by rw [kept .parameter (by decide)]; exact counted⟩

theorem definition_tallied (serves : level.Serves limits bound site) {u : Unit}
    (h : (definition level site items).Yields limits s u t) : Tallied limits bound s t := by
  have low := serves.low
  obtain ⟨first, others, arity, addresses, v, -, few, same, parts, rfl⟩ := yields_definition h
  have bare := ((((((Node.Bare.make site .functionDefinition).withTags [.expression]).set "name"
    first.name (by decide)).set "arity" arity (by decide)).set "visibility" first.visibility
    (by decide)).set "clause_count" (first :: others).length (by decide)).withPosition first.clause.position
  obtain ⟨counted, tallied⟩ := eachPart_tallied
    (fun _ _ _ _ _ size part => (functionClause_tallied serves (Nat.le_of_eq size) part).1) parts
  have standing : ∀ address ∈ addresses, ∃ clause ∈ first :: others, ∃ node, v.Stands address node ∧
      (node.related .parameter).length = clause.clause.arity :=
    eachPart_stands (fun _ _ _ _ size part =>
      (functionClause_tallied serves (Nat.le_of_eq size) part).imp_left Tallied.stands) parts
  refine (Fitting.numbered _ .clause addresses (fun _ => counted ▸ few) tallied).framed.emitCounted bare
    (by simp; rfl) (by simp; omega) (.ofFunction (.inr (by simp)) ?_)
  apply countsClauses (·.clause.arity) (List.cons_ne_nil first others)
    same counted
  · intro address member
    obtain ⟨clause, among, node, here, parameters⟩ := standing address member
    exact ⟨clause, among, node, Session.Stands.emit here _, parameters⟩
  · exact Node.related_numbered (bare.targets .clause) addresses
  · rw [Node.property?_relateAll, Node.property?_declare,
      Node.property?_withPosition _ _ (by decide) (by decide)]
    exact Node.property?_set_self _ _ _
  · rw [Node.property?_relateAll, Node.property?_declare,
      Node.property?_withPosition _ _ (by decide) (by decide),
      Node.property?_set_of_ne _ _ (by decide), Node.property?_set_of_ne _ _ (by decide)]
    exact Node.property?_set_self _ _ _

/-! ## Operators, blocks and all other expressions -/

/-- The node of a binary operator is emitted once both operands are built. -/
theorem binaryNode_tallied (low : site.size ≤ bound) {kind : NodeKind} (common : kind.isCommon = true)
    {sign : String} {left right : Address} (operands : Tallied limits bound s t)
    (dressed : Fitting limits bound [] (binaryNode site kind sign left right) t result t) :
    Tallied limits bound s (t.emit result) := by
  have bare := ((Node.Bare.make site kind).withTags [.expression, .operator, .binaryOperator]).set
    "symbol" sign (by decide)
  have first := Fitting.single (((Node.make site kind).withTags
    [.expression, .operator, .binaryOperator]).set "symbol" sign) .leftOperand left rfl operands
  have both := first.trans (Fitting.single _ .rightOperand right rfl (.done t)) (by decide)
  exact (both.adjust dressed).emit bare common low

theorem matching_tallied (serves : level.Serves limits bound site) {sign : String} {left right : Source}
    {u : Unit} (h : (matching level site source sign left right).Yields limits s u t) :
    Tallied limits bound s t := by
  have low := serves.low
  obtain ⟨v, bindings, w, value, pattern, rfl⟩ := yields_matching h
  have first := (serves.expression (by rw [Address.size_child]; omega) value).logged
  have operands := first.next (serves.pattern (by rw [Address.size_child]; omega) pattern)
  exact binaryNode_tallied (by omega) rfl (operands.next (.bindAll bindings (some v.logged)))
    ((Fitting.withTags _ _).adjust (.withPosition _ _))

theorem binaryOperator_tallied (serves : level.Serves limits bound site) {kind : NodeKind}
    (common : kind.isCommon = true) {sign : String} {left right : Source} {u : Unit}
    (h : (binaryOperator level site source kind sign left right).Yields limits s u t) :
    Tallied limits bound s t := by
  have low := serves.low
  obtain ⟨_, s₁, first, rest⟩ := yields_bind h
  obtain ⟨_, s₂, second, last⟩ := yields_bind rest
  obtain rfl := yields_emit last
  have operands := (serves.expression (by rw [Address.size_child]; omega) first).next
    (serves.expression (by rw [Address.size_child]; omega) second)
  exact binaryNode_tallied (by omega) common operands (.withPosition _ _)

theorem unaryOperator_tallied (serves : level.Serves limits bound site) {kind : NodeKind}
    (common : kind.isCommon = true) {sign : String} {operand : Source} {u : Unit}
    (h : (unaryOperator level site source kind sign operand).Yields limits s u t) :
    Tallied limits bound s t := by
  have low := serves.low
  obtain ⟨middle, s₁, inner, last⟩ := yields_bind h
  obtain rfl := yields_emit last
  have bare := (((Node.Bare.make site kind).withTags
    [.expression, .operator, .unaryOperator]).set "symbol" sign (by decide)).withPosition source.position
  exact (child_fitting serves (by simp) rfl inner).emit bare (by simpa using common) (by simp; omega)

theorem block_tallied (serves : level.Serves limits bound site) {u : Unit}
    (h : (block level site source items).Yields limits s u t) : Tallied limits bound s t := by
  have low := serves.low
  obtain ⟨addresses, s₁, parts, last⟩ := yields_bind h
  obtain rfl := yields_emit last
  have bare := ((Node.Bare.make site .block).withTags [.expression]).withPosition source.position
  obtain ⟨-, tallied⟩ := eachPart_tallied
    (fun _ _ _ _ _ size part => serves.expression (by omega) part) parts
  exact (Fitting.numbered _ .statement addresses (fun capped => nomatch capped) tallied).emit bare
    (by simp; rfl) (by simp; omega)

theorem localCall_tallied (serves : level.Serves limits bound site) {name : String} {u : Unit}
    (h : (localCall level site source name items).Yields limits s u t) : Tallied limits bound s t := by
  unfold localCall at h
  split at h
  · exact definition_tallied serves h
  · dsimp only at h
    split at h
    · obtain ⟨v, inner, rfl⟩ := yields_inScope h
      exact (call_tallied serves (by decide) inner).framed
    · exact call_tallied serves (by decide) h

theorem nameNode_tallied (low : site.size ≤ bound) {kind : NodeKind} (common : kind.isCommon = true)
    {name : String} : Tallied limits bound s (s.emit (nameNode site kind name source)) := by
  have bare := (((Node.Bare.make site kind).withTags [.expression]).set "name" name (by decide)).withPosition
    source.position
  exact leaf_tallied bare (by simpa [nameNode] using common) (by simpa [nameNode] using low)

theorem symbol_tallied (low : site.size ≤ bound) {name : String} {u : Unit}
    (h : (do
      readSymbol name site source.position
      emit ((nameNode site .variable name source).set "ignored" (isIgnored name))).Yields
        limits s u t) : Tallied limits bound s t := by
  obtain ⟨_, s₁, read, last⟩ := yields_bind h
  obtain rfl := yields_readSymbol read
  obtain rfl := yields_emit last
  have bare := ((((Node.Bare.make site .variable).withTags [.expression]).set "name" name
    (by decide)).withPosition source.position).set "ignored" (isIgnored name) (by decide)
  have seen : Tallied limits bound s (s.readSymbol name site source.position) :=
    .same rfl rfl rfl
  exact seen.next (leaf_tallied bare (by simp [nameNode]; rfl) (by simpa [nameNode] using low))

theorem operatorKind_common (category : Operator) : category.nodeKind.isCommon = true := by
  cases category <;> rfl

theorem expressionStep_tallied (sound : level.Sound) (serves : level.Serves limits bound site)
    (deeper : inner.Serves limits bound site) {u : Unit}
    (h : (expressionStep level inner site source).Yields limits s u t) : Tallied limits bound s t := by
  have low : site.size ≤ bound := Nat.le_trans (Nat.le_add_right _ 2) serves.low
  unfold expressionStep at h
  split at h
  · exact literal_tallied serves h
  · exact symbol_tallied low h
  · obtain rfl := yields_emit h
    exact nameNode_tallied low rfl
  · obtain rfl := yields_emit h
    exact nameNode_tallied low rfl
  · split at h
    · rename_i name _
      obtain rfl := yields_emit h
      have bare := (((Node.Bare.make site .alias).withTags [.expression]).set "qualified_name"
        name (by decide)).withPosition source.position
      exact leaf_tallied bare (by simp; rfl) (by simpa using low)
    · exact unknown_tallied low h
  · exact unaryOperator_tallied serves (operatorKind_common _) h
  · exact matching_tallied serves h
  · exact binaryOperator_tallied serves (operatorKind_common _) h
  · exact block_tallied serves h
  · exact conditional_tallied serves h
  · exact caseExpression_tallied serves h
  · exact condExpression_tallied serves h
  · exact withExpression_tallied serves deeper h
  · exact comprehension_tallied serves deeper h
  · exact anonymousFunction_tallied sound serves h
  · exact capture_tallied sound serves h
  · exact placeholder_tallied low h
  · exact localCall_tallied serves h
  · exact call_tallied serves (by decide) h
  · exact call_tallied serves (by decide) h
  · exact unknown_tallied low h

end Build

/-! ## Levels and constructs -/

/-- A level tallies if every level it has left accounts for four segments below an address. -/
structure Level.Tallies (level : Level) (limits : Limits) (bound : Nat) : Prop where
  expression : ∀ {site source s t}, site.size + 4 * level.room ≤ bound + 2 →
    (level.expression site source).Yields limits s () t → Tallied limits bound s t
  pattern : ∀ {site source bindings result s t}, site.size + 4 * level.room ≤ bound + 2 →
    (level.pattern site source bindings).Yields limits s result t → Tallied limits bound s t

namespace Level

variable {limits : Limits} {bound : Nat} {level inner : Level}

/-- A level serves the nodes of the level above it. -/
theorem Tallies.serves (tallies : level.Tallies limits bound) {top : Address} {room : Nat}
    (lower : level.room ≤ room) (fits : top.size + 4 * (room + 1) ≤ bound + 2) :
    level.Serves limits bound top where
  low := by omega
  expression near h := tallies.expression (by omega) h
  pattern near h := tallies.pattern (by omega) h

theorem bottom_tallies : bottom.Tallies limits bound :=
  ⟨fun _ h => absurd h Build.not_yields_tooDeep, fun _ h => absurd h Build.not_yields_tooDeep⟩

theorem above_tallies {room : Nat} (sound : level.Sound) (tallies : level.Tallies limits bound)
    (deeper : inner.Tallies limits bound) (next : level.room ≤ room) (last : inner.room ≤ room) :
    (above (room + 1) (fun _ => level) (fun _ => inner)).Tallies limits bound where
  expression fits h :=
    Build.expressionStep_tallied sound (tallies.serves next fits) (deeper.serves last fits) h
  pattern fits h :=
    Build.patternStep_tallied (tallies.serves next fits) (fun h =>
      Build.expressionStep_tallied sound (tallies.serves next fits) (deeper.serves last fits) h) h

theorem ofRoom_room : ∀ room, (ofRoom room).room = room
  | 0 => rfl
  | 1 => rfl
  | _ + 2 => rfl

/-- Whatever is built at any level tallies. -/
theorem ofRoom_tallies : ∀ room, (ofRoom room).Tallies limits bound
  | 0 => bottom_tallies
  | 1 => above_tallies bottom_sound bottom_tallies bottom_tallies (Nat.le_refl _) (Nat.le_refl _)
  | room + 2 => above_tallies (ofRoom_sound (room + 1)) (ofRoom_tallies (room + 1)) (ofRoom_tallies room)
      (Nat.le_of_eq (ofRoom_room _)) (by rw [ofRoom_room]; omega)

end Level

namespace Compiler

variable {c : Compiler} {k : Construct}

/-- What is built for a construct tallies: every level below the first takes four segments at
most, and the nodes of the last builder two. -/
theorem construct_tallied {s t : Session} (h : (k.build c).Yields c.limits s () t) :
    Tallied c.limits (k.root.size + 4 * (c.limits.maxDepth - 1) + 2) s t := by
  have tallies : ∀ room, (Level.ofRoom room).Tallies c.limits
      (k.root.size + 4 * (c.limits.maxDepth - 1) + 2) := Level.ofRoom_tallies
  have room := Level.ofRoom_room c.limits.maxDepth
  cases k with
  | expression root source =>
      exact (tallies _).expression (by rw [room]; simp only [Construct.root]; omega) h
  | function root clauses =>
      change (buildFunction root clauses c.limits.maxDepth).Yields _ _ _ _ at h
      cases depth : c.limits.maxDepth with
      | zero =>
          rw [depth] at h
          exact absurd h Build.not_yields_tooDeep
      | succ room =>
          rw [depth] at h tallies
          have fits : root.size + 4 * (room + 1) ≤ root.size + 4 * room + 2 + 2 := by omega
          exact Build.definition_tallied
            ((tallies room).serves (Nat.le_of_eq (Level.ofRoom_room room)) fits) h
  | pattern root source =>
      obtain ⟨bindings, inner, -⟩ := Build.yields_map h
      exact (tallies _).pattern (by rw [room]; simp only [Construct.root]; omega) inner

/-- All nodes and all reports of a compiled construct tally. -/
theorem construct_tally {compiled : Compiled} (h : c.construct k = .ok compiled) :
    ∃ nodes, compiled.root = k.root ∧ compiled.nodes = sortNodes nodes ∧
      Tally c.limits (k.root.size + 4 * (c.limits.maxDepth - 1) + 2) nodes compiled.closures := by
  obtain ⟨t, success, rfl⟩ := construct_eq_ok h
  obtain ⟨nodes, reports, allNodes, allReports, tally, -⟩ := construct_tallied success
  have noNodes : c.session.nodes.toList = [] := rfl
  have noReports : c.session.reports.toList = [] := rfl
  rw [noNodes, List.nil_append] at allNodes
  rw [noReports, List.nil_append] at allReports
  exact ⟨nodes, rfl, congrArg sortNodes allNodes, (show (finish k.root t).closures = reports from
    allReports) ▸ tally⟩

end Compiler

/-- What was compiled stays within every ceiling: no node is further below the root than the
depth allows, no node has more parts than the fan-out allows, and no report is longer than the
ceilings on captures and frames. -/
structure Compiled.Within (limits : Limits) (compiled : Compiled) : Prop where
  deep : ∀ n ∈ compiled.nodes, n.address.segments.length ≤
    compiled.root.segments.length + (4 * (limits.maxDepth - 1) + 2)
  wide : ∀ n ∈ compiled.nodes, n.Fits limits
  captures : ∀ r ∈ compiled.closures, r.captures.length ≤ limits.maxCaptures
  scopeChain : ∀ r ∈ compiled.closures, r.scopeChain.length ≤ limits.maxDepth

/-- Whatever is compiled stays within the ceilings. -/
theorem Compiler.construct_within {c : Compiler} {k : Construct} {compiled : Compiled}
    (h : c.construct k = .ok compiled) : compiled.root = k.root ∧ compiled.Within c.limits := by
  obtain ⟨nodes, root, all, tally⟩ := construct_tally h
  have standing : ∀ n ∈ compiled.nodes, n ∈ nodes := by
    intro n member
    rw [all] at member
    exact (sortNodes_perm nodes).mem_iff.mp member
  refine ⟨root, ?_, ?_, ?_, ?_⟩
  · intro n member
    rw [root, ← Nat.add_assoc]
    exact tally.low n (standing n member)
  · exact fun n member => tally.fits n (standing n member)
  · exact fun r member => (tally.reported r member).captures
  · exact fun r member => (tally.reported r member).scopeChain

/-- The ceilings can be met exactly: `x = 1; fn y -> x + y end` is four levels deep, its closure
captures one symbol and has one clause. -/
theorem Compiler.construct_within_captureAcross :
    ∃ compiled, Compiler.construct ⟨⟨4, 1, 1⟩, []⟩ captureAcross = .ok compiled ∧
      (compiled.closures.map (·.captures.length)) = [1] ∧
      compiled.root = ⟨"expr/0"⟩ ∧ compiled.Within ⟨4, 1, 1⟩ := by
  obtain ⟨compiled, success, captured⟩ :
      ∃ compiled, Compiler.construct ⟨⟨4, 1, 1⟩, []⟩ captureAcross = .ok compiled ∧
        (compiled.closures.map (·.captures.length)) = [1] := ⟨_, rfl, rfl⟩
  exact ⟨compiled, success, captured, Compiler.construct_within success⟩

end SyntaxGraph
