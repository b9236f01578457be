import SyntaxGraph.Proofs.Fittings
import SyntaxGraph.Proofs.Visits

/-!
# Every build visits its tree

One lemma per builder: it comes to the parts of its shape, each at the address it is met at. A
builder that hands a node on is followed together with the node, which keeps its address and its
kind, so that the kind is known where the node is emitted.

From the builders this passes to levels, by induction on the levels that are left, and so to all
that is compiled.
-/

namespace SyntaxGraph

open Session

@[simp] theorem Node.relate_kind (n : Node) (role : Role) (target : Address) :
    (n.relate role target).kind = n.kind := rfl

/-- A stretch that visits stations and puts together a node of a given address and kind. -/
structure Fills (limits : Limits) (given : Bindings) (ps : List Station) (site : Address)
    (kind : NodeKind) (s : Session) (result : Node) (t : Session) : Prop where
  sited : result.address = site ∧ result.kind = kind
  visits : Visits limits given ps s t

namespace Fills

variable {limits : Limits} {given found : Bindings} {ps qs : List Station} {site : Address}
  {kind : NodeKind} {middle result final : Node} {s t u : Session}

theorem refl (sited : result.address = site ∧ result.kind = kind) (s : Session) :
    Fills limits given [] site kind s result s := ⟨sited, .done s⟩

theorem hand (first : Fills limits given ps site kind s middle t) (adds : Adds s t given found)
    (second : Fills limits found qs site kind t result u) :
    Fills limits given (ps ++ qs) site kind s result u :=
  ⟨second.sited, first.visits.hand adds second.visits⟩

theorem next (first : Fills limits given ps site kind s middle t)
    (second : Fills limits given qs site kind t result u) :
    Fills limits given (ps ++ qs) site kind s result u := ⟨second.sited, first.visits.next second.visits⟩

theorem position (own : Fills limits [] ps site kind s result t) :
    Fills limits given ps site kind s result t := ⟨own.sited, .position own.visits⟩

theorem framed {frame : ScopeKind} (inner : Fills limits given ps site kind (s.enter frame) result t) :
    Fills limits given ps site kind s result { t with current := s.current } :=
  ⟨inner.sited, inner.visits.framed⟩

/-- What keeps the address and the kind may follow. -/
theorem adjust (fills : Fills limits given ps site kind s result t)
    (same : final.address = result.address ∧ final.kind = result.kind) :
    Fills limits given ps site kind s final t :=
  ⟨⟨same.1.trans fills.sited.1, same.2.trans fills.sited.2⟩, fills.visits⟩

theorem emit (fills : Fills limits given ps site kind s result t)
    (unmarked : kind.isUnmarked = true) : Visits limits given ps s (t.emit result) :=
  fills.visits.emitUnmarked (by rw [fills.sited.2]; exact unmarked)

end Fills

namespace Build

variable {limits : Limits} {level inner : Level} {node result : Node} {kind : NodeKind} {role : Role}
  {site : Address} {source : Source} {items : List Source} {position : Option Position}
  {given found : Bindings} {s t : Session}

/-! ## Parts of a node -/

theorem child_fills (visits : level.Visits) (sited : node.address = site ∧ node.kind = kind)
    (h : (level.child node role source).Yields limits s result t) :
    Fills limits [] [(site.child role.label, .expression source)] site kind s result t := by
  obtain ⟨rfl, rfl⟩ := sited
  obtain ⟨inner, rfl⟩ := yields_child h
  exact ⟨⟨rfl, rfl⟩, visits.expression inner⟩

theorem optionalChild_fills (visits : level.Visits) (sited : node.address = site ∧ node.kind = kind)
    {source : Option Source} (h : (optionalChild level node role source).Yields limits s result t) :
    Fills limits [] (Part.optionalAt site role source) site kind s result t := by
  cases source with
  | none =>
      obtain ⟨rfl, rfl⟩ := yields_pure h
      exact .refl sited s
  | some source => exact child_fills visits sited h

/-- Parts at numbered addresses, each of which may hand bindings on. -/
theorem foldParts_visits {α β : Type} {build : Address → α → β → Build β} (bindings : β → Bindings)
    {each : Address → α → List Station} {index : Nat} {xs : List α} {value : β}
    {found : List Address × β}
    (step : ∀ {address x s value t value'}, (build address x value).Yields limits s value' t →
      Visits limits (bindings value) (each address x) s t ∧ Adds s t (bindings value) (bindings value'))
    (h : (foldParts site role build index xs value).Yields limits s found t) :
    Visits limits (bindings value) (Part.numbered site role each index xs) s t ∧
      Adds s t (bindings value) (bindings found.2) := by
  induction xs generalizing index value s found with
  | nil =>
      obtain ⟨rfl, rfl⟩ := yields_foldParts_nil h
      exact ⟨.done s, .refl s _⟩
  | cons x xs ih =>
      obtain ⟨middle, addresses, u, first, others, -⟩ := yields_foldParts_cons h
      obtain ⟨visits, adds⟩ := step first
      obtain ⟨visits', adds'⟩ := ih others
      exact ⟨visits.hand adds visits', adds.trans adds'⟩

theorem eachPart_visits {α : Type} {build : Address → α → Build Unit} {xs : List α}
    {addresses : List Address} {each : Address → α → List Station}
    (step : ∀ {address x s t}, (build address x).Yields limits s () t → Visits limits [] (each address x) s t)
    (h : (eachPart site role build xs).Yields limits s addresses t) :
    Visits limits [] (Part.numbered site role each 0 xs) s t :=
  (foldParts_visits (fun _ => []) (fun part => ⟨step part, (step part).adds []⟩) (yields_eachPart h)).1

theorem expressions_visits (visits : level.Visits) {addresses : List Address}
    (h : (eachPart site role level.expression items).Yields limits s addresses t) :
    Visits limits [] (Part.expressionsAt site role items) s t :=
  eachPart_visits (fun part => visits.expression part) h

/-- A pattern that is visited, with the bindings it hands on. -/
theorem pattern_visits (visits : level.Visits) (h : (level.pattern site source given).Yields limits s found t) :
    Visits limits given [(site, .pattern source)] s t ∧ Adds s t given found :=
  ⟨visits.pattern h, (visits.sound.binding h).2⟩

theorem patterns_visits (visits : level.Visits) {result : List Address × Bindings}
    (h : (foldParts site role level.pattern 0 items given).Yields limits s result t) :
    Visits limits given (Part.patternsAt site role items) s t ∧ Adds s t given result.2 :=
  foldParts_visits id (fun part => pattern_visits visits part) h

/-! ## Literals -/

theorem elements_fills (visits : level.Visits) (sited : node.address = site ∧ node.kind = kind)
    (h : (elements level node items).Yields limits s result t) :
    Fills limits [] (Part.expressionsAt site .element items) site kind s result t := by
  obtain ⟨rfl, rfl⟩ := sited
  obtain ⟨addresses, -, inner, rfl⟩ := yields_elements h
  exact ⟨by simp, expressions_visits visits inner⟩

theorem unknown_visits {tag : String} {u : Unit} (h : (unknown site tag position).Yields limits s u t) :
    Visits limits [] [] s t := by
  obtain ⟨_, s₁, emitted, last⟩ := yields_bind h
  obtain rfl := yields_emit emitted
  obtain rfl := yields_modify last
  refine Visits.andThen (.emit ?_) (.diagnose _ _)
  simp
  rfl

theorem entry_visits (visits : level.Visits) {u : Unit}
    (h : (entry level site source).Yields limits s u t) :
    Visits limits [] (Part.entryAt .expression site source) s t := by
  unfold Part.entryAt
  cases isEntry : source.mapEntry? with
  | none =>
    rw [entry, isEntry] at h
    exact unknown_visits h
  | some pair =>
    obtain ⟨v, w, keyed, valued, rfl⟩ := yields_entry isEntry h
    exact ((visits.expression keyed).next (visits.expression valued)).emitUnmarked (by simp; rfl)

theorem entries_fills (visits : level.Visits) (sited : node.address = site ∧ node.kind = kind)
    (h : (entries level node items).Yields limits s result t) :
    Fills limits [] (Part.entriesAt .expression site items) site kind s result t := by
  obtain ⟨rfl, rfl⟩ := sited
  obtain ⟨addresses, -, inner, rfl⟩ := yields_entries h
  exact ⟨by simp, eachPart_visits (fun part => entry_visits visits part) inner⟩

theorem mapBody_fills (visits : level.Visits) (sited : node.address = site ∧ node.kind = kind)
    (h : (mapBody level node items).Yields limits s result t) :
    Fills limits [] (Part.mapBodyAt site items) site kind s result t := by
  rw [mapBody_eq] at h
  unfold Part.mapBodyAt
  cases found : mapUpdate? items with
  | some parts =>
      rw [found] at h
      obtain ⟨middle, u, based, rest⟩ := yields_bind h
      have base := child_fills visits sited based
      exact base.next (entries_fills visits base.sited rest)
  | none =>
      rw [found] at h
      exact entries_fills visits sited h

theorem bounds_fills (visits : level.Visits) (sited : node.address = site ∧ node.kind = kind)
    {bounds : List (Role × Option Source)}
    (h : (Build.bounds level node bounds).Yields limits s result t) :
    Fills limits [] (bounds.flatMap fun bound => Part.optionalAt site bound.1 bound.2) site kind s result t := by
  induction bounds generalizing node s with
  | nil =>
      obtain ⟨rfl, rfl⟩ := yields_pure h
      exact .refl sited s
  | cons bound bounds ih =>
      obtain ⟨role, bound⟩ := bound
      cases bound with
      | none => exact ih sited h
      | some bound =>
          obtain ⟨middle, u, first, last⟩ := yields_bind h
          have child := child_fills visits sited first
          exact child.next (ih child.sited last)

end Build

/-! ## Segments -/

namespace Segment

open Build

variable {limits : Limits} {site : Address} {s t : Session} {β : Type}

/-- A word other than `-` replaces the size if it gives a variable. -/
theorem sizeName_readWord (r : Reading) (word : Source) :
    (readWord r word).sizeName = (sizeVariable? word).or r.sizeName := by
  unfold readWord
  split
  all_goals first | rfl | skip
  all_goals
    unfold sizeVariable?
    split
    · simp_all
    · rfl

/-- The last word that gives a variable gives the size. -/
theorem sizeName_readPending {pending : List (Source × Nat)} {r result : Reading}
    (h : (readPending site pending r).Yields limits s result t) :
    result.sizeName = ((pending.flatMap fun entry => words entry.1).filterMap sizeVariable?).getLast?.or
      r.sizeName := by
  fun_induction readPending site pending r with
  | case1 r =>
      obtain ⟨rfl, rfl⟩ := yields_pure h
      rfl
  | case2 r => exact absurd h not_yields_tooDeep
  | case3 r note left right room rest ih =>
      rw [ih h]
      simp only [List.flatMap_cons, words, List.append_assoc]
  | case4 r word room rest other ih =>
      have single : words word = [word] := by
        unfold words
        split
        · exact absurd rfl (other _ _ _)
        · rfl
      have last : ([word].filterMap sizeVariable?).getLast? = sizeVariable? word := by
        cases found : sizeVariable? word <;> simp [found]
      rw [ih h, sizeName_readWord, List.flatMap_cons, single, List.filterMap_append,
        List.getLast?_append, Option.or_assoc, last]

variable {build : Address → Source → β → Build β} (bindings : β → Bindings) {part : Source → Part}

/-- A segment comes to its value, stands, and hands on the variable that gives its size. -/
theorem step_visits
    (value : ∀ {address source s value t value'}, (build address source value).Yields limits s value' t →
      Visits limits (bindings value) [(address, part source)] s t ∧
        Adds s t (bindings value) (bindings value'))
    {room : Nat} {segment : Source} {state result : β × List (String × Address)}
    (h : (step room build site segment state).Yields limits s result t) :
    (Visits limits (bindings state.1) [(site.child Role.value.label, part (split segment).1)] s t ∧
      Adds s t (bindings state.1) (bindings result.1)) ∧
      result.2 = state.2 ++ Part.sizeAt site segment ∧ Places s t site := by
  obtain ⟨built, u, reading, w, inner, read, rfl, rfl⟩ := yields_step h
  have size : reading.sizeName = (split segment).2.bind sizeName? := by
    rw [sizeName_readPending read]
    cases (split segment).2 <;> simp [sizeName?]
  obtain ⟨sort, -⟩ := readPending_kept read
  obtain ⟨rfl, same, -⟩ := yields_readPending read
  have here : reading.node.address = site := by simpa using same
  obtain ⟨visits, adds⟩ := value inner
  refine ⟨⟨visits.emitUnmarked (by rw [sort]; simp; rfl), adds.emit _⟩, ?_, ?_⟩
  · rw [Part.sizeAt, ← size]
    cases reading.sizeName <;> rfl
  · exact here ▸ (Places.emit u reading.node).after adds

theorem foldParts_visits
    (value : ∀ {address source s value t value'}, (build address source value).Yields limits s value' t →
      Visits limits (bindings value) [(address, part source)] s t ∧
        Adds s t (bindings value) (bindings value'))
    {room index : Nat} {segments : List Source} {state : β × List (String × Address)}
    {found : List Address × β × List (String × Address)}
    (h : (foldParts site .segment (step room build) index segments state).Yields limits s found t) :
    (Visits limits (bindings state.1) (Part.numbered site .segment (fun address segment =>
        [(address.child Role.value.label, part (split segment).1)]) index segments) s t ∧
      Adds s t (bindings state.1) (bindings found.2.1)) ∧
      found.2.2 = state.2 ++ Part.numbered site .segment Part.sizeAt index segments ∧
      ∀ size ∈ Part.numbered site .segment Part.sizeAt index segments, Places s t size.2 := by
  induction segments generalizing index state s found with
  | nil =>
      obtain ⟨rfl, rfl⟩ := yields_foldParts_nil h
      exact ⟨⟨.done s, .refl s _⟩, (List.append_nil _).symm, fun _ member => (nomatch member)⟩
  | cons segment segments ih =>
      obtain ⟨middle, addresses, u, first, others, -⟩ := yields_foldParts_cons h
      obtain ⟨⟨visits, adds⟩, sizes, placed⟩ := step_visits bindings value first
      obtain ⟨⟨visits', adds'⟩, sizes', placed'⟩ := ih others
      refine ⟨⟨visits.hand adds visits', adds.trans adds'⟩, ?_, fun size member => ?_⟩
      · rw [sizes', sizes, List.append_assoc]
        rfl
      · cases List.mem_append.mp member with
        | inl here =>
            obtain ⟨name, -, rfl⟩ := List.mem_map.mp here
            exact placed.andThen adds'
        | inr later => exact (placed' size later).after adds

/-- The stations of segments: values while they are built, and sizes afterwards. -/
theorem mem_segmentsAt {part : Source → Part} {site : Address} {segments : List Source} (q : Station) :
    q ∈ Part.segmentsAt part site segments ↔
      q ∈ Part.numbered site .segment (fun address segment =>
        [(address.child Role.value.label, part (split segment).1)]) 0 segments ++
      (Part.numbered site .segment Part.sizeAt 0 segments).map fun size => (size.2, .name size.1) := by
  constructor
  · intro member
    obtain ⟨i, segment, found, here⟩ := Part.mem_numbered.mp member
    refine List.mem_append.mpr ((List.mem_cons.mp here).imp (fun same => ?_) fun sized => ?_)
    · exact Part.mem_numbered.mpr ⟨i, segment, found, List.mem_singleton.mpr same⟩
    · obtain ⟨size, given, rfl⟩ := List.mem_map.mp sized
      exact List.mem_map.mpr ⟨size, Part.mem_numbered.mpr ⟨i, segment, found, given⟩, rfl⟩
  · intro member
    cases List.mem_append.mp member with
    | inl valued =>
        obtain ⟨i, segment, found, here⟩ := Part.mem_numbered.mp valued
        obtain rfl := List.mem_singleton.mp here
        exact Part.mem_numbered.mpr ⟨i, segment, found, List.mem_cons_self⟩
    | inr sized =>
        obtain ⟨size, listed, rfl⟩ := List.mem_map.mp sized
        obtain ⟨i, segment, found, here⟩ := Part.mem_numbered.mp listed
        exact Part.mem_numbered.mpr ⟨i, segment, found,
          List.mem_cons_of_mem _ (List.mem_map.mpr ⟨size, here, rfl⟩)⟩

/-- No segment is inside of the value of one, or inside of another. -/
theorem outside_segmentsAt {part : Source → Part} {site : Address} {segments : List Source}
    {size : String × Address} (sized : size ∈ Part.numbered site .segment Part.sizeAt 0 segments) {p : Station}
    (member : p ∈ Part.segmentsAt part site segments) (within : size.2.isWithin p.1 = true) :
    p.1 = size.2 := by
  obtain ⟨j, segment, -, here⟩ := Part.mem_numbered.mp sized
  obtain ⟨i, other, -, there⟩ := Part.mem_numbered.mp member
  rw [Nat.zero_add] at here there
  obtain ⟨name, -, rfl⟩ := List.mem_map.mp here
  have same : ∀ {a : Address}, a.isWithin (site.at (.segment, some i)) = true →
      a.isWithin (site.at (.segment, some j)) = true → i = j := by
    intro a first second
    by_contra distinct
    have apart := site.at_apart (p := (.segment, some i)) (q := (.segment, some j)) (.inr ⟨i, j, rfl, rfl, distinct⟩)
    exact Bool.false_ne_true ((apart.not_isWithin first).symm.trans second)
  cases List.mem_cons.mp there with
  | inl valued =>
      subst valued
      have below := (site.at (.segment, some i)).at_isWithin (.value, none)
      have equal := same (Address.isWithin_trans within below) (Address.isWithin_self _)
      subst equal
      exact absurd ((Address.not_isWithin_at _ (.value, none)).symm.trans within) Bool.false_ne_true
  | inr sized =>
      obtain ⟨other, given, rfl⟩ := List.mem_map.mp sized
      obtain ⟨name', -, rfl⟩ := List.mem_map.mp given
      have equal := same within (Address.isWithin_self _)
      subst equal
      rfl

/-- The segments of a binary whose sizes are read afterwards, unless its own position binds them. -/
theorem buildAll_fills
    (values : ∀ {address source s value t value'}, (build address source value).Yields limits s value' t →
      Visits limits (bindings value) [(address, part source)] s t ∧
        Adds s t (bindings value) (bindings value'))
    {room : Nat} {node : Node} {kind : NodeKind} {segments : List Source} {value : β}
    {result : Node × β × List (String × Address)} (position : Option Position)
    (sited : node.address = site ∧ node.kind = kind)
    (h : (buildAll room build node segments value).Yields limits s result t) :
    Fills limits (bindings value) (Part.segmentsAt part site segments) site kind s result.1
        ((result.2.2.filter fun size => !(bindings result.2.1).binds size.1).foldl
          (fun s read => s.readSymbol read.1 read.2 position) t) ∧
      Adds s t (bindings value) (bindings result.2.1) := by
  obtain ⟨rfl, rfl⟩ := sited
  obtain ⟨addresses, final, -, inner, rfl⟩ := yields_buildAll h
  obtain ⟨⟨visits, adds⟩, sizes, placed⟩ := foldParts_visits bindings (fun part => values part) inner
  rw [List.nil_append] at sizes
  dsimp only at visits adds sizes ⊢
  refine ⟨⟨by simp, ?_⟩, adds⟩
  rw [sizes]
  exact (visits.sizes adds position placed fun size sized p among =>
    outside_segmentsAt sized ((mem_segmentsAt p).mpr among)).reorder mem_segmentsAt

end Segment

namespace Build

variable {limits : Limits} {level inner : Level} {node result : Node} {kind : NodeKind} {role : Role}
  {site : Address} {source : Source} {items : List Source} {position : Option Position}
  {given found : Bindings} {s t : Session}

/-! ## Whole literals and calls -/

theorem literalNode_fills (visits : level.Visits) {shape : Literal}
    (h : (literalNode level site position shape).Yields limits s result t) :
    ∃ kind : NodeKind, kind.isUnmarked = true ∧
      Fills limits [] (Part.literalAt site shape) site kind s result t := by
  have composite : ∀ kind, (compositeNode site kind).address = site ∧ (compositeNode site kind).kind = kind :=
    fun _ => ⟨rfl, rfl⟩
  cases shape with
  | list items =>
      refine ⟨.listLiteral, rfl, ?_⟩
      obtain ⟨middle, u, first, rest⟩ := yields_bind h
      have elements := elements_fills visits (composite _) first
      refine elements.next ?_
      split at rest
      · rename_i absent
        replace absent : (Source.splitTail items).2 = none := absent
        obtain ⟨rfl, rfl⟩ := yields_pure rest
        rw [absent]
        exact .refl elements.sited u
      · rename_i last given
        replace given : (Source.splitTail items).2 = some last := given
        rw [given]
        exact child_fills visits elements.sited rest
  | keywordList items => exact ⟨.keywordList, rfl, entries_fills visits (composite _) h⟩
  | tuple items => exact ⟨.tupleLiteral, rfl, elements_fills visits (composite _) h⟩
  | map items => exact ⟨.mapLiteral, rfl, mapBody_fills visits (composite _) h⟩
  | struct typeRef fields =>
      refine ⟨.structLiteral, rfl, ?_⟩
      obtain ⟨middle, u, first, rest⟩ := yields_bind h
      have typed := child_fills visits (composite _) first
      dsimp only at rest
      split at rest
      · exact typed.next (mapBody_fills visits (by simpa using typed.sited) rest)
      · exact typed.next (mapBody_fills visits typed.sited rest)
  | range first last step =>
      have filled := bounds_fills visits (composite _) h
      simp only [List.flatMap_cons, List.flatMap_nil, List.append_nil] at filled
      exact ⟨.rangeLiteral, rfl, filled⟩
  | sigil letter content modifiers =>
      refine ⟨.sigilLiteral, rfl, ?_⟩
      dsimp only [literalNode] at h
      dsimp only [Part.literalAt]
      split at h
      · rename_i text plain
        obtain ⟨rfl, rfl⟩ := yields_pure h
        rw [plain]
        exact .refl (by simp) s
      · rename_i interpolated
        rw [interpolated]
        exact child_fills visits (by simp) h
  | binary segments =>
      refine ⟨.binaryLiteral, rfl, ?_⟩
      obtain ⟨found, u, inner, rest⟩ := yields_bind h
      obtain ⟨_, v, read, last⟩ := yields_bind rest
      obtain rfl := yields_readAll read
      obtain ⟨rfl, rfl⟩ := yields_pure last
      obtain ⟨filled, -⟩ := Segment.buildAll_fills (fun _ => [])
        (fun part => ⟨visits.expression part, (visits.expression part).adds []⟩) position (composite _) inner
      have all : (found.2.2.filter fun size => !Bindings.binds [] size.1) = found.2.2 :=
        List.filter_eq_self.mpr fun _ _ => rfl
      rw [all] at filled
      exact filled
  | _ =>
      obtain ⟨rfl, rfl⟩ := yields_pure h
      refine ⟨_, ?_, ⟨rfl, rfl⟩, .done s⟩
      rfl

theorem literal_visits (visits : level.Visits) {shape : Literal} {u : Unit}
    (h : (literal level site source shape).Yields limits s u t) :
    Visits limits [] (Part.literalAt site shape) s t := by
  obtain ⟨result, s₁, inner, last⟩ := yields_bind h
  obtain rfl := yields_emit last
  obtain ⟨kind, unmarked, filled⟩ := literalNode_fills visits inner
  exact (filled.adjust (by simp)).emit unmarked

theorem receiver_fills (visits : level.Visits) (sited : node.address = site ∧ node.kind = kind)
    (h : (receiver level node source).Yields limits s result t) :
    Fills limits [] (Part.receiverAt site source) site kind s result t := by
  unfold receiver at h
  unfold Part.receiverAt
  cases named : receiverModule? source with
  | some name =>
      rw [named] at h
      obtain ⟨rfl, rfl⟩ := yields_pure h
      exact .refl sited s
  | none =>
      rw [named] at h
      exact child_fills visits sited h

@[simp] theorem functionReference_kind (site : Address) (module? : Option String) (name : String)
    (arity : Nat) : (functionReference site module? name arity).kind = .functionReference := by
  unfold functionReference
  split <;> simp

theorem callee_fills (visits : level.Visits) (sited : node.address = site ∧ node.kind = kind)
    {target : Callee} {arity : Nat} (h : (callee level node target arity).Yields limits s result t) :
    Fills limits [] (Part.calleeAt site target) site kind s result t := by
  cases target with
  | named name =>
      obtain ⟨rfl, rfl⟩ := yields_callee_named h
      exact ⟨by simpa using sited, .emit (by simp; rfl)⟩
  | remote target name =>
      obtain ⟨middle, u, first, rfl, rfl⟩ := yields_callee_remote h
      have received : Fills limits [] _ site kind s middle u :=
        receiver_fills visits (by simpa using sited) first
      exact ⟨by simpa using received.sited, received.visits.emitUnmarked (by simp; rfl)⟩
  | anonymous function => exact child_fills visits sited h

theorem call_visits (visits : level.Visits) {kind : NodeKind} (unmarked : kind.isUnmarked = true)
    {target : Callee} {u : Unit} (h : (call level site source kind target items).Yields limits s u t) :
    Visits limits [] (Part.calleeAt site target ++ Part.expressionsAt site .argument items) s t := by
  obtain ⟨middle, s₁, first, rest⟩ := yields_bind h
  obtain ⟨addresses, s₂, parts, last⟩ := yields_bind rest
  obtain rfl := yields_emit last
  have called : Fills limits [] _ site kind s middle s₁ := callee_fills visits (by simp) first
  exact (called.visits.next (expressions_visits visits parts)).emitUnmarked (by simpa [called.sited] using unmarked)

/-! ## Heads of clauses and patterns -/

theorem patternChild_fills (visits : level.Visits) (sited : node.address = site ∧ node.kind = kind)
    {result : Node × Bindings} (h : (patternChild level node role source given).Yields limits s result t) :
    Fills limits given [(site.child role.label, .pattern source)] site kind s result.1 t ∧
      Adds s t given result.2 := by
  obtain ⟨rfl, rfl⟩ := sited
  obtain ⟨more, u, inner, last⟩ := yields_bind h
  obtain ⟨rfl, rfl⟩ := yields_pure last
  obtain ⟨visited, adds⟩ := pattern_visits visits inner
  exact ⟨⟨⟨rfl, rfl⟩, visited⟩, adds⟩

theorem patternElements_fills (visits : level.Visits) (sited : node.address = site ∧ node.kind = kind)
    {result : Node × Bindings} (h : (patternElements level node items given).Yields limits s result t) :
    Fills limits given (Part.patternsAt site .element items) site kind s result.1 t ∧
      Adds s t given result.2 := by
  obtain ⟨rfl, rfl⟩ := sited
  obtain ⟨addresses, more, -, inner, rfl⟩ := yields_patternElements h
  obtain ⟨visited, adds⟩ := patterns_visits visits inner
  exact ⟨⟨by simp, visited⟩, adds⟩

/-- The key of an entry is a position of its own. -/
theorem patternEntry_visits (visits : level.Visits)
    (h : (patternEntry level site source given).Yields limits s found t) :
    Visits limits given (Part.entryAt .pattern site source) s t ∧ Adds s t given found := by
  refine ⟨?_, (patternEntry_built visits.sound h).2⟩
  obtain ⟨key, value, v, w, isEntry, keyed, valued, rfl⟩ := yields_patternEntry h
  rw [Part.entryAt, isEntry]
  have first : Visits limits given [(site.child Role.key.label, .pattern key)] s v :=
    .position (visits.pattern keyed)
  exact (first.next (visits.pattern valued)).emitUnmarked (by simp; rfl)

theorem patternEntries_fills (visits : level.Visits) (sited : node.address = site ∧ node.kind = kind)
    {result : Node × Bindings} (h : (patternEntries level node items given).Yields limits s result t) :
    Fills limits given (Part.entriesAt .pattern site items) site kind s result.1 t ∧
      Adds s t given result.2 := by
  obtain ⟨rfl, rfl⟩ := sited
  obtain ⟨addresses, more, -, inner, rfl⟩ := yields_patternEntries h
  obtain ⟨visited, adds⟩ := foldParts_visits id (fun part => patternEntry_visits visits part) inner
  exact ⟨⟨by simp, visited⟩, adds⟩

/-- Patterns that share one address. -/
theorem sharedPatterns_visits (visits : level.Visits)
    (h : (items.foldlM (fun bindings param => level.pattern site param bindings) given).Yields limits s
      found t) :
    Visits limits given (items.map fun source => (site, .pattern source)) s t ∧ Adds s t given found := by
  induction items generalizing given s with
  | nil =>
      obtain ⟨rfl, rfl⟩ := yields_pure h
      exact ⟨.done s, .refl s given⟩
  | cons item items ih =>
      rw [List.foldlM_cons] at h
      obtain ⟨more, u, first, rest⟩ := yields_bind h
      obtain ⟨visited, adds⟩ := pattern_visits visits first
      obtain ⟨visited', adds'⟩ := ih rest
      exact ⟨visited.hand adds visited', adds.trans adds'⟩

theorem parameters_fills (visits : level.Visits) (sited : node.address = site ∧ node.kind = kind)
    {result : Node × Bindings} (h : (parameters level node role items).Yields limits s result t) :
    Fills limits [] (Part.parametersAt site role items) site kind s result.1 t ∧ Adds s t [] result.2 := by
  obtain ⟨rfl, rfl⟩ := sited
  unfold Part.parametersAt
  by_cases ordered : role.isOrdered = true
  · rw [if_pos ordered]
    obtain ⟨addresses, more, inner, rfl⟩ := yields_parameters_of_ordered ordered h
    obtain ⟨visited, adds⟩ := patterns_visits visits inner
    exact ⟨⟨by simp, visited⟩, adds⟩
  · rw [if_neg ordered]
    obtain ⟨bindings, inner, rfl⟩ := yields_parameters_of_not_ordered ordered h
    obtain ⟨visited, adds⟩ := sharedPatterns_visits visits inner
    exact ⟨⟨by simp, visited⟩, adds⟩

/-- The bindings of a head enter the frame before its guard. -/
theorem clauseHead_fills (visits : level.Visits) (sited : node.address = site ∧ node.kind = kind)
    {clause : Clause} {result : Node × List String}
    (h : (clauseHead level node role clause).Yields limits s result t) :
    Fills limits [] (Part.parametersAt site role clause.params ++ Part.optionalAt site .guard clause.guard)
      site kind s result.1 t := by
  obtain ⟨middle, bindings, v, final, params, guard, rfl⟩ := yields_clauseHead h
  obtain ⟨filled, adds⟩ := parameters_fills visits sited params
  have guarded := optionalChild_fills visits filled.sited guard
  exact ⟨guarded.sited, (filled.visits.bind adds).next guarded.visits⟩

/-- A clause: its head and its body are built in a frame of its own, and its node is emitted. -/
theorem inFrame_visits (visits : level.Visits) {clause : Clause} {frame : ScopeKind} {middle final : Node}
    {u v : Session}
    (head : Fills limits [] (Part.parametersAt site role clause.params ++ Part.optionalAt site .guard clause.guard)
      site kind (s.enter frame) middle u) (unmarked : kind.isUnmarked = true)
    (body : (optionalChild level middle .body clause.body).Yields limits u final v) :
    Visits limits [] (Part.clauseAt role site clause) s { v.emit final with current := s.current } := by
  rw [Part.clauseAt, ← List.append_assoc]
  exact ((head.next (optionalChild_fills visits head.sited body)).emit unmarked).framed

/-! ## Branches -/

theorem branchClause_visits (visits : level.Visits) {clause : Clause} {u : Unit}
    (h : (branchClause level site clause).Yields limits s u t) :
    Visits limits [] (Part.clauseAt .pattern site clause) s t := by
  obtain ⟨middle, names, v, final, w, head, body, rfl⟩ := yields_branchClause h
  have headed : Fills limits [] _ site .caseClause _ middle v := clauseHead_fills visits (by simp) head
  exact inFrame_visits visits headed rfl body

/-- The clauses of a node that has clauses in a role. -/
theorem branchClauses_fills (visits : level.Visits) (sited : node.address = site ∧ node.kind = kind)
    (h : (branchClauses level node role items).Yields limits s result t) :
    Fills limits [] (Part.clausesAt site role (Part.clauseAt .pattern) items) site kind s result t := by
  obtain ⟨rfl, rfl⟩ := sited
  obtain ⟨clauses, addresses, each, -, -, parts, rfl⟩ := yields_branchClauses h
  rw [Part.clausesAt, filterMap_of_forall₂ each]
  exact ⟨by simp, eachPart_visits (fun part => branchClause_visits visits part) parts⟩

theorem branch_fills (visits : level.Visits) (sited : node.address = site ∧ node.kind = kind)
    {branch : Option Source} (h : (Build.branch level node role branch).Yields limits s result t) :
    Fills limits [] (Part.optionalAt site role branch) site kind s result t := by
  cases branch with
  | none =>
      obtain ⟨rfl, rfl⟩ := yields_pure h
      exact .refl sited s
  | some source =>
      obtain ⟨u, inner, rfl⟩ := yields_inScope h
      exact (child_fills visits sited inner).framed

theorem controlNode_sited (site : Address) (kind : NodeKind) (source : Source) :
    (controlNode site kind source).address = site ∧ (controlNode site kind source).kind = kind := by
  simp

theorem conditional_visits (visits : level.Visits) {negated : Bool} {condition branches : Source}
    {u : Unit} (h : (conditional level site source negated condition branches).Yields limits s u t) :
    Visits limits [] ((site.child Role.condition.label, .expression condition) ::
      (Part.optionalAt site .thenBranch (branches.keyword? "do") ++
        Part.optionalAt site .elseBranch (branches.keyword? "else"))) s t := by
  obtain ⟨n₁, s₁, n₂, s₂, n₃, s₃, first, second, third, rfl⟩ := yields_conditional h
  have condition := child_fills visits (controlNode_sited _ _ _) first
  have yes := branch_fills visits condition.sited second
  have no := branch_fills visits yes.sited third
  exact (condition.next (yes.next no)).emit (by cases negated <;> rfl)

theorem caseExpression_visits (visits : level.Visits) {subject branches : Source} {u : Unit}
    (h : (caseExpression level site source subject branches).Yields limits s u t) :
    Visits limits [] ((site.child Role.subject.label, .expression subject) ::
      Part.clausesAt site .clause (Part.clauseAt .pattern) (clauseItems (branches.keyword? "do"))) s t := by
  obtain ⟨n₁, s₁, first, rest⟩ := yields_bind h
  obtain ⟨n₂, s₂, second, last⟩ := yields_bind rest
  obtain rfl := yields_emit last
  have subject := child_fills visits (controlNode_sited _ _ _) first
  exact (subject.next (branchClauses_fills visits subject.sited second)).emit rfl

theorem condClause_visits (visits : level.Visits) {clause : Clause} {u : Unit}
    (h : (condClause level site clause).Yields limits s u t) :
    Visits limits [] (Part.condClauseAt site clause) s t := by
  obtain ⟨middle, v, final, w, first, second, rfl⟩ := yields_condClause h
  have condition : Fills limits [] _ site .condClause _ middle v :=
    optionalChild_fills visits (by simp) first
  exact ((condition.next (optionalChild_fills visits condition.sited second)).emit rfl).framed

theorem condExpression_visits (visits : level.Visits) {branches : Source} {u : Unit}
    (h : (condExpression level site source branches).Yields limits s u t) :
    Visits limits [] (Part.clausesAt site .clause Part.condClauseAt (clauseItems (branches.keyword? "do"))) s t := by
  obtain ⟨clauses, addresses, v, each, -, parts, rfl⟩ := yields_condExpression h
  rw [Part.clausesAt, filterMap_of_forall₂ each]
  exact (eachPart_visits (fun part => condClause_visits visits part) parts).emitUnmarked (by simp; rfl)

/-! ## Chains of generators -/

theorem generator_visits (visits : level.Visits) {u : Unit}
    (h : (generator level role site source).Yields limits s u t) :
    Visits limits [] ((Generator.ofSource? source).toList.flatMap (Part.generatorAt role site)) s t := by
  obtain ⟨parts, n₁, v, n₂, bindings, w, n₃, x, found, valued, matched, guarded, rfl⟩ := yields_generator h
  have value : Fills limits [] _ site .generator _ n₁ v := child_fills visits (by simp) valued
  obtain ⟨pattern, adds⟩ := patternChild_fills visits value.sited matched
  have guard := optionalChild_fills visits pattern.sited guarded
  rw [found, Option.toList_some, List.flatMap_singleton]
  have whole := value.visits.logged.next ((pattern.visits.bind adds).next guard.visits)
  exact whole.emitUnmarked (by rw [guard.sited.2]; rfl)

theorem chain_fills {isGenerator : Source → Bool}
    {buildGenerator buildOther : Address → Source → Build Unit} {otherwise : Role} {index : Nat}
    (sited : node.address = site ∧ node.kind = kind)
    (generators : ∀ {address source s t}, (buildGenerator address source).Yields limits s () t →
      Visits limits [] ((Generator.ofSource? source).toList.flatMap (Part.generatorAt role address)) s t)
    (others : ∀ {address source s t}, (buildOther address source).Yields limits s () t →
      Visits limits [] [(address, .expression source)] s t)
    (h : (chainClauses isGenerator buildGenerator otherwise buildOther index items node).Yields
      limits s result t) :
    Fills limits [] (Part.chainAt isGenerator role otherwise site index items) site kind s result t := by
  induction items generalizing index node s with
  | nil =>
      obtain ⟨rfl, rfl⟩ := yields_pure h
      exact .refl sited s
  | cons clause items ih =>
      obtain ⟨u, first, rest⟩ := yields_chainClauses_cons h
      have later := ih (by simpa using sited) rest
      refine ⟨later.sited, Visits.next (t := u) ?_ later.visits⟩
      rw [sited.1] at first
      split
      · rename_i arrow
        rw [if_pos arrow, if_pos arrow] at first
        exact generators first
      · rename_i plain
        rw [if_neg plain, if_neg plain] at first
        exact others first

theorem withExpression_visits (visits : level.Visits) (deeper : inner.Visits) {parts : List Source}
    {options : Source} {u : Unit}
    (h : (withExpression level inner site source parts options).Yields limits s u t) :
    Visits limits [] (Part.chainAt Generator.isArrow .value .statement site 0 parts ++
      (Part.optionalAt site .body (options.keyword? "do") ++
        Part.clausesAt site .elseBranch (Part.clauseAt .pattern) (clauseItems (options.keyword? "else")))) s t := by
  obtain ⟨n₁, v, n₂, w, -, clauses, body, rest⟩ := yields_withExpression h
  have chained : Fills limits [] _ site .withExpression _ n₁ v :=
    chain_fills (by simp) (generator_visits deeper) visits.expression clauses
  have whole := (chained.next (optionalChild_fills visits chained.sited body)).framed
  rw [← List.append_assoc]
  obtain ⟨absent, rfl⟩ | ⟨fallback, n₃, x, given, alternatives, rfl⟩ := rest
  · rw [absent]
    exact (whole.next (.refl whole.sited _)).emit rfl
  · rw [given]
    exact (whole.next (branchClauses_fills visits whole.sited alternatives)).emit rfl

/-- The qualifiers of a comprehension and its body. -/
theorem qualifiers_fills (visits : level.Visits) (deeper : inner.Visits)
    (sited : node.address = site ∧ node.kind = kind) {qualifiers : List Source} {options : Source}
    (h : (inScope .comprehension do
      let node ← chainClauses Generator.isQualifier (generator inner .enumerable) .filter
        level.expression 0 qualifiers (node.declare .generator)
      match options.keyword? "reduce" with
      | some _ => branchClauses level node .clause (clauseItems (options.keyword? "do"))
      | none => optionalChild level node .body (options.keyword? "do")).Yields limits s result t) :
    Fills limits [] (Part.chainAt Generator.isQualifier .enumerable .filter site 0 qualifiers ++
      if (options.keyword? "reduce").isSome then
        Part.clausesAt site .clause (Part.clauseAt .pattern) (clauseItems (options.keyword? "do"))
      else Part.optionalAt site .body (options.keyword? "do")) site kind s result t := by
  obtain ⟨v, chain, rfl⟩ := yields_inScope h
  obtain ⟨n₂, s₃, clauses, body⟩ := yields_bind chain
  have chained : Fills limits [] _ site kind _ n₂ s₃ :=
    chain_fills (by simpa using sited) (generator_visits deeper) visits.expression clauses
  split at body
  · rename_i start given
    rw [given]
    exact (chained.next (branchClauses_fills visits chained.sited body)).framed
  · rename_i absent
    rw [absent]
    exact (chained.next (optionalChild_fills visits chained.sited body)).framed

theorem comprehension_visits (visits : level.Visits) (deeper : inner.Visits) {qualifiers : List Source}
    {options : Source} {u : Unit}
    (h : (comprehension level inner site source qualifiers options).Yields limits s u t) :
    Visits limits [] ((Part.optionalAt site .into (options.keyword? "into") ++
        Part.optionalAt site .reduce (options.keyword? "reduce")) ++
      (Part.chainAt Generator.isQualifier .enumerable .filter site 0 qualifiers ++
        if (options.keyword? "reduce").isSome then
          Part.clausesAt site .clause (Part.clauseAt .pattern) (clauseItems (options.keyword? "do"))
        else Part.optionalAt site .body (options.keyword? "do"))) s t := by
  obtain ⟨n₁, v, n₂, w, n₃, x, -, into, reduce, framed, rfl⟩ := yields_comprehension h
  have first := optionalChild_fills visits (controlNode_sited _ _ _) into
  have opened := first.next (optionalChild_fills visits first.sited reduce)
  split at framed
  · exact (opened.next (qualifiers_fills visits deeper (by simpa using opened.sited) framed)).emit rfl
  · exact (opened.next (qualifiers_fills visits deeper opened.sited framed)).emit rfl

/-! ## Closures -/

theorem closureClause_visits (visits : level.Visits) {clause : Clause} {u : Unit}
    (h : (closureClause level site clause).Yields limits s u t) :
    Visits limits [] (Part.clauseAt .parameter site clause) s t := by
  obtain ⟨middle, names, v, final, w, head, body, rfl⟩ := yields_closureClause h
  have headed : Fills limits [] _ site .anonymousFunctionClause _ middle v :=
    clauseHead_fills visits (by simp) head
  exact inFrame_visits visits ⟨headed.sited, headed.visits.andThen (.bound _ names)⟩ rfl body

theorem anonymousFunction_visits (visits : level.Visits) (shape : source.expression = .closure items)
    {u : Unit} (h : (anonymousFunction level site source items).Yields limits s u t) :
    Visits limits given [(site, .expression source)] s t := by
  have built := anonymousFunction_built visits.sound h
  obtain ⟨clauses, arity, addresses, v, w, final, each, -, parts, closed, rfl⟩ := yields_anonymousFunction h
  obtain ⟨-, inside⟩ := eachPart_built (fun _ _ _ _ _ part => (closureClause_framed visits.sound part).built) parts
  obtain ⟨opened, others, top, -⟩ := opened_closure inside
  obtain ⟨report, reported, rfl, rfl⟩ := yields_closeClosure top closed
  have inner : Visits limits [] (Part.expressionAt site source) (s.openClosure site) v := by
    rw [Part.expressionAt, shape]
    dsimp only
    rw [Part.clausesAt, filterMap_of_forall₂ each]
    exact eachPart_visits (fun part => closureClause_visits visits part) parts
  exact Visits.closure inner (.function shape (by simp; rfl)) top reported (by simp) built

theorem functionCapture_visits (visits : level.Visits) {f : CapturedFunction} {u : Unit}
    (h : (functionCapture level site source f).Yields limits s u t) :
    Visits limits [] (f.receiver.toList.flatMap (Part.receiverAt site)) s t := by
  have finish : ∀ {ps : List Station} {final : Node} {v : Session},
      Fills limits [] ps site .functionCapture s final v →
      Visits limits [] ps s ((v.emit (functionReference (site.child Role.callee.label)
        (f.receiver.bind receiverModule?) f.name f.arity)).emit
          (final.relate .callee (site.child Role.callee.label))) := fun filled =>
    (filled.visits.emitUnmarked (by simp; rfl)).emitUnmarked (by simp [filled.sited]; rfl)
  obtain ⟨n₁, s₁, ⟨absent, rfl, rfl⟩ | ⟨target, given, received⟩, rfl⟩ := yields_functionCapture h
  · rw [absent] at finish ⊢
    refine finish (.refl ?_ s₁)
    split <;> simp
  · have filled : Fills limits [] _ site .functionCapture s n₁ s₁ :=
      receiver_fills visits (by simp) received
    rw [given] at finish ⊢
    rw [Option.toList_some, List.flatMap_singleton]
    refine finish (filled.adjust ?_)
    split <;> simp

theorem shorthandClosure_visits (visits : level.Visits) {body : Source}
    (shape : source.expression = .capture body) (unnamed : capturedFunction? body = none) {u : Unit}
    (h : (shorthandClosure level site source body).Yields limits s u t) :
    Visits limits given [(site, .expression source)] s t := by
  have built := shorthandClosure_built visits.sound h
  obtain ⟨v, closed, w, inner, closing, rfl⟩ := yields_shorthandClosure h
  obtain ⟨gain, route⟩ := visits.sound.expression inner
  have inside : Built limits [site.child Role.body.label] (s.openClosure site)
      { v with placeholders := v.placeholders.tail } := ⟨gain, .counted route⟩
  obtain ⟨opened, others, top, -⟩ := opened_closure inside
  obtain ⟨report, reported, rfl, rfl⟩ := yields_closeClosure top closing
  have within : Visits limits [] (Part.expressionAt site source)
      { s.openClosure site with placeholders := [0] ++ s.placeholders } v := by
    rw [Part.expressionAt, shape]
    dsimp only
    rw [unnamed]
    exact visits.expression inner
  rw [← List.drop_one] at built ⊢
  refine Visits.closure within (.shorthand shape unnamed (by simp) ?_) top reported (by simp) built
  rw [Node.property?_relate, Node.property?_set_self]

theorem placeholder_visits {index : Int64} (shape : source.expression = .placeholder index) {u : Unit}
    (h : (placeholder site source index).Yields limits s u t) :
    Visits limits given [(site, .expression source)] s t := by
  obtain ⟨low, high⟩ := placeholder_inRange h
  obtain ⟨greatest, rest, counted, rfl⟩ := yields_placeholder h
  refine .placeholder shape low high counted (by simp) (by simp) ?_
  rw [Node.property?_withPosition _ _ (by decide) (by decide)]
  exact Node.property?_set_self _ _ _

/-! ## Operators, blocks and definitions -/

theorem matching_visits (visits : level.Visits) {sign : String} {left right : Source} {u : Unit}
    (h : (matching level site source sign left right).Yields limits s u t) :
    Visits limits [] [(site.child Role.rightOperand.label, .expression right),
      (site.child Role.leftOperand.label, .pattern left)] s t := by
  obtain ⟨v, bindings, w, value, pattern, rfl⟩ := yields_matching h
  obtain ⟨visited, adds⟩ := pattern_visits visits pattern
  exact ((visits.expression value).logged.next (visited.bind adds)).emitUnmarked (by simp [binaryNode]; rfl)

theorem binaryOperator_visits (visits : level.Visits) {kind : NodeKind} (unmarked : kind.isUnmarked = true)
    {sign : String} {left right : Source} {u : Unit}
    (h : (binaryOperator level site source kind sign left right).Yields limits s u t) :
    Visits limits [] [(site.child Role.leftOperand.label, .expression left),
      (site.child Role.rightOperand.label, .expression right)] s t := by
  obtain ⟨_, s₁, first, rest⟩ := yields_bind h
  obtain ⟨_, s₂, second, last⟩ := yields_bind rest
  obtain rfl := yields_emit last
  exact ((visits.expression first).next (visits.expression second)).emitUnmarked
    (by simpa [binaryNode] using unmarked)

theorem unaryOperator_visits (visits : level.Visits) {kind : NodeKind} (unmarked : kind.isUnmarked = true)
    {sign : String} {operand : Source} {u : Unit}
    (h : (unaryOperator level site source kind sign operand).Yields limits s u t) :
    Visits limits [] [(site.child Role.operand.label, .expression operand)] s t := by
  obtain ⟨middle, s₁, inner, last⟩ := yields_bind h
  obtain rfl := yields_emit last
  have filled : Fills limits [] _ site kind s middle s₁ := child_fills visits (by simp) inner
  exact filled.emit unmarked

theorem block_visits (visits : level.Visits) {u : Unit}
    (h : (block level site source items).Yields limits s u t) :
    Visits limits [] (Part.expressionsAt site .statement items) s t := by
  obtain ⟨addresses, s₁, parts, last⟩ := yields_bind h
  obtain rfl := yields_emit last
  exact (expressions_visits visits parts).emitUnmarked (by simp; rfl)

theorem functionClause_visits (visits : level.Visits) {clause : Clause} {u : Unit}
    (h : (functionClause level site clause).Yields limits s u t) :
    Visits limits [] (Part.clauseAt .parameter site clause) s t := by
  obtain ⟨middle, names, v, final, w, head, body, rfl⟩ := yields_functionClause h
  have headed : Fills limits [] _ site .functionClause _ middle v := clauseHead_fills visits (by simp) head
  exact inFrame_visits visits headed rfl body

theorem definition_visits (visits : level.Visits) {u : Unit}
    (h : (definition level site items).Yields limits s u t) :
    Visits limits [] (Part.numbered site .clause (fun address form => Part.clauseAt .parameter address form.clause) 0
      (items.filterMap fun form => (DefinitionClause.ofSource form).toOption)) s t := by
  obtain ⟨first, others, arity, addresses, v, each, -, -, parts, rfl⟩ := yields_definition h
  rw [filterMap_of_forall₂ (each.imp fun _ _ found => by rw [found]; rfl)]
  exact (eachPart_visits (fun part => functionClause_visits visits part) parts).framed.emitUnmarked
    (by simp; rfl)

theorem localCall_visits (visits : level.Visits) {name : String} {u : Unit}
    (h : (localCall level site source name items).Yields limits s u t) :
    Visits limits [] (if (Expression.localCall name items).isDefinition then
        Part.numbered site .clause (fun address form => Part.clauseAt .parameter address form.clause) 0
          (DefinitionClause.ofSource source).toOption.toList
      else Part.expressionsAt site .argument items) s t := by
  unfold localCall at h
  rw [Expression.isDefinition]
  split at h
  · rename_i defines
    rw [if_pos defines]
    exact definition_visits visits h
  · rename_i other
    rw [if_neg other]
    dsimp only at h
    split at h
    · obtain ⟨v, inner, rfl⟩ := yields_inScope h
      exact (call_visits visits rfl inner).framed
    · exact call_visits visits rfl h

/-! ## Whole expressions and patterns -/

theorem symbol_visits {name : String} {u : Unit}
    (h : (do
      readSymbol name site source.position
      emit ((nameNode site .variable name source).set "ignored" (isIgnored name))).Yields
        limits s u t) : Visits limits [] [(site, .name name)] s t := by
  obtain ⟨_, s₁, read, last⟩ := yields_bind h
  obtain rfl := yields_readSymbol read
  obtain rfl := yields_emit last
  have visited : ∀ node : Node, node.address = site → node.kind = .variable →
      Visits limits [] [(site, .name name)] s ((s.readSymbol name site source.position).emit node) := by
    rintro node rfl sort
    exact .symbol (by rw [sort]; rfl)
  exact visited _ (by simp [nameNode]) (by simp [nameNode])

/-- A node of a name that is not read. -/
theorem nameNode_visits {kind : NodeKind} (unmarked : kind.isUnmarked = true) {name : String} {u : Unit}
    (h : (emit (nameNode site kind name source)).Yields limits s u t) : Visits limits [] [] s t := by
  obtain rfl := yields_emit h
  exact .emit (by simpa [nameNode] using unmarked)

theorem moduleName_visits {segments : List Source} {u : Unit}
    (h : (match moduleText? segments with
      | some name =>
        emit ((Node.make site .alias)
          |>.withTags [.expression]
          |>.set "qualified_name" name
          |>.withPosition source.position)
      | none => unknown site "__aliases__" source.position).Yields limits s u t) :
    Visits limits [] [] s t := by
  split at h
  · obtain rfl := yields_emit h
    exact .emit (by simp; rfl)
  · exact unknown_visits h

theorem capture_visits (visits : level.Visits) {body : Source} (shape : source.expression = .capture body)
    {u : Unit} (h : (capture level site source body).Yields limits s u t) :
    Visits limits given [(site, .expression source)] s t := by
  unfold capture at h
  cases named : capturedFunction? body with
  | some f =>
      rw [named] at h
      refine .position (.inside ?_ ?_)
      · simp [Part.isUnmarked, shape, named]
      · simp only [Part.stations, Part.expressionAt, shape, named]
        exact functionCapture_visits visits h
  | none =>
      rw [named] at h
      exact shorthandClosure_visits visits shape named h

theorem expressionStep_visits (visits : level.Visits) (deeper : inner.Visits) {u : Unit}
    (h : (expressionStep level inner site source).Yields limits s u t) :
    Visits limits [] [(site, .expression source)] s t := by
  have whole : (Part.expression source).isUnmarked = true →
      Visits limits [] (Part.expressionAt site source) s t →
      Visits limits [] [(site, .expression source)] s t := .inside
  dsimp only [Part.isUnmarked, Part.expressionAt] at whole
  unfold expressionStep at h
  generalize shape : source.expression = e at h whole
  cases e with
  | closure => exact anonymousFunction_visits visits shape h
  | capture => exact capture_visits visits shape h
  | placeholder => exact placeholder_visits shape h
  | literal => exact whole rfl (literal_visits visits h)
  | symbol => exact whole rfl (symbol_visits h)
  | reserved => exact whole rfl (nameNode_visits rfl h)
  | moduleAttribute => exact whole rfl (nameNode_visits rfl h)
  | moduleName => exact whole rfl (moduleName_visits h)
  | unary category => exact whole rfl (unaryOperator_visits visits (by cases category <;> rfl) h)
  | binary category =>
      cases category with
      | matching => exact whole rfl (matching_visits visits h)
      | _ => exact whole rfl (binaryOperator_visits visits rfl h)
  | block => exact whole rfl (block_visits visits h)
  | conditional => exact whole rfl (conditional_visits visits h)
  | case => exact whole rfl (caseExpression_visits visits h)
  | cond => exact whole rfl (condExpression_visits visits h)
  | withChain => exact whole rfl (withExpression_visits visits deeper h)
  | comprehension => exact whole rfl (comprehension_visits visits deeper h)
  | localCall => exact whole rfl (localCall_visits visits h)
  | remoteCall => exact whole rfl (call_visits visits rfl h)
  | anonymousCall => exact whole rfl (call_visits visits rfl h)
  | unknown => exact whole rfl (unknown_visits h)

theorem signedPattern_visits {number : Source} {kind : NodeKind} {value : Property}
    (shape : source.pattern = .signed number) (stated : signedNumber? number = some (kind, value)) :
    Visits limits given [(site, .pattern source)] s (s.emit ((Node.make site kind)
      |>.withTags [.literal, .pattern]
      |>.set "value" value
      |>.withPosition source.position)) := by
  refine .signed shape (by simp) (by simpa using stated) ?_
  rw [Node.property?_withPosition _ _ (by decide) (by decide)]
  exact Node.property?_set_self _ _ _

theorem binaryPattern_visits (visits : level.Visits) {segments : List Source}
    {sizes : List (String × Address)} (shape : source.pattern = .binary segments)
    (inner : (Segment.buildAll level.room level.pattern (patternNode site .binaryPattern source) segments
      given).Yields limits s (node, found, sizes) t) :
    Visits limits given [(site, .pattern source)] s
      (((sizes.filter fun size => !found.binds size.1).foldl
        (fun s read => s.readSymbol read.1 read.2 source.position) t).emit node) := by
  have start : (patternNode site .binaryPattern source).address = site ∧
      (patternNode site .binaryPattern source).kind = .binaryPattern := by simp
  obtain ⟨filled, -⟩ := Segment.buildAll_fills id (fun part => pattern_visits visits part)
    source.position start inner
  exact .binary shape filled.visits filled.sited.1 filled.sited.2

theorem patternStep_visits (visits : level.Visits) {sameDepth : Address → Source → Build Unit}
    (here : ∀ {s t}, (sameDepth site source).Yields limits s () t →
      Visits limits [] [(site, .expression source)] s t)
    (h : (patternStep level sameDepth site source given).Yields limits s found t) :
    Visits limits given [(site, .pattern source)] s t := by
  have whole : (Part.pattern source).isUnmarked = true →
      Visits limits given (Part.patternAt site source) s t →
      Visits limits given [(site, .pattern source)] s t := .inside
  dsimp only [Part.isUnmarked, Part.patternAt] at whole
  have start : ∀ kind, (patternNode site kind source).address = site ∧
      (patternNode site kind source).kind = kind := fun kind => by simp
  have run := yields_patternStep h
  generalize shape : source.pattern = p at run whole
  cases run with
  | literal inner => exact whole rfl (.position (literal_visits visits inner))
  | value inner => exact whole rfl (.position (here inner))
  | signed stated => exact signedPattern_visits shape stated
  | symbol =>
    have leaf : ∀ n : Node, n.address = site ∧ n.kind = .variablePattern →
        Fills limits given [] site .variablePattern s n s := fun _ sited => .refl sited s
    exact whole rfl ((leaf _ (by simp)).emit rfl)
  | wildcard =>
    have leaf : Fills limits given [] site .wildcardPattern s _ s := .refl (start .wildcardPattern) s
    exact whole rfl (leaf.emit rfl)
  | @pin _ node v _ _ inner =>
    have filled : Fills limits [] _ site .pinPattern s node v := child_fills visits (by simp) inner
    exact whole rfl (filled.position.emit rfl)
  | tuple inner => exact whole rfl ((patternElements_fills visits (start _) inner).1.emit rfl)
  | @list _ node found v inner =>
    obtain ⟨first, adds⟩ := patternElements_fills visits (start .listPattern) inner
    exact whole rfl ((first.hand adds (.refl first.sited v)).emit rfl)
  | listTail inner tailed =>
    obtain ⟨first, adds⟩ := patternElements_fills visits (start .listPattern) inner
    exact whole rfl ((first.hand adds (patternChild_fills visits first.sited tailed).1).emit rfl)
  | map inner => exact whole rfl ((patternEntries_fills visits (start .mapPattern) inner).1.emit rfl)
  | struct inner name inside =>
    obtain ⟨first, adds⟩ := patternChild_fills visits (start .structPattern) inner
    split at name <;> subst name
    · have fields := (patternEntries_fills visits (by simpa using first.sited) inside).1
      exact whole rfl ((first.hand adds fields).emit rfl)
    · exact whole rfl ((first.hand adds (patternEntries_fills visits first.sited inside).1).emit rfl)
  | binary inner => exact binaryPattern_visits visits shape inner
  | both inner second =>
    obtain ⟨first, adds⟩ := patternChild_fills visits (start .asPattern) inner
    exact whole rfl ((first.hand adds (patternChild_fills visits first.sited second).1).emit rfl)
  | @textHead _ _ node _ v inner =>
    have filled : Fills limits given _ site .stringPrefixPattern s node v :=
      (patternChild_fills visits (by simp) inner).1
    exact whole rfl (filled.emit rfl)
  | fallback inner valued =>
    obtain ⟨first, adds⟩ := patternChild_fills visits (start .defaultArgument) inner
    exact whole rfl ((first.hand adds (child_fills visits first.sited valued).position).emit rfl)

end Build

namespace Level

theorem bottom_visits : bottom.Visits :=
  ⟨bottom_sound, fun h => absurd h Build.not_yields_tooDeep, fun h => absurd h Build.not_yields_tooDeep⟩

theorem above_visits {room : Nat} {level inner : Level} (visits : level.Visits) (deeper : inner.Visits) :
    (above room (fun _ => level) (fun _ => inner)).Visits :=
  ⟨above_sound visits.sound deeper.sound, fun h => Build.expressionStep_visits visits deeper h,
    fun h => Build.patternStep_visits visits (fun h => Build.expressionStep_visits visits deeper h) h⟩

/-- Whatever is built at any level visits its whole tree. -/
theorem ofRoom_visits : ∀ room, (ofRoom room).Visits
  | 0 => bottom_visits
  | 1 => above_visits bottom_visits bottom_visits
  | room + 2 => above_visits (ofRoom_visits (room + 1)) (ofRoom_visits room)

end Level

/-- Every build of a construct visits what is met in it. -/
theorem Compiler.construct_visits {c : Compiler} {k : Construct} {s t : Session}
    (h : (k.build c).Yields c.limits s () t) : Visits c.limits [] k.stations s t := by
  cases k with
  | expression root source => exact (Level.ofRoom_visits _).expression h
  | function root forms =>
      unfold Construct.build buildFunction at h
      cases depth : c.limits.maxDepth with
      | zero =>
          rw [depth] at h
          exact absurd h Build.not_yields_tooDeep
      | succ room =>
          rw [depth] at h
          exact Build.definition_visits (Level.ofRoom_visits room) h
  | pattern root source =>
      obtain ⟨bindings, success, -⟩ := Build.yields_map h
      exact (Level.ofRoom_visits _).pattern success

end SyntaxGraph
