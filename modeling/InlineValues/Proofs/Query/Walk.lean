import InlineValues.Proofs.Query.Row

/-!
# What a walk reports

Each function of the walk gives a row for the part of the tree that it is given, if what it visits
does so (`Walk.Visits`).  Then so does the walk of a node (`Walk.row_form`), and by induction on the
depth the whole walk (`Walk.visits_values`).
-/

namespace InlineValues

namespace Walk

/-! ## Declarations, assignments and statements -/

section

variable {w : Walk} {root n : Node} {o : Option Node} {visit : Visit}

/-- What a function of the walk is told of the parts that it visits. -/
def Visits (w : Walk) (root : Node) (visit : Visit) : Prop :=
  ∀ o : Option Node, (∀ c ∈ o.toList, c.Within root) → w.Row root o.toList (visit o)

lemma within_parts {form : Form Node} (hn : n.Within root) (hform : n.form = form) :
    ∀ c ∈ form.children, c.Within root := by
  subst hform
  exact fun c hc => .trans (.child hc .refl) hn

lemma On.expressed_parts {form : Form Node} (hw : w.On root) (hn : n.Within root)
    (hform : n.form = form) : ∀ c ∈ form.shown, Expressed root c := by
  subst hform
  exact hw.expressed hn

lemma On.proper_parts {form : Form Node} (hw : w.On root) (hn : n.Within root)
    (hform : n.form = form) : ∀ c ∈ form.evaluated, c.Proper w.source := by
  subst hform
  exact (hw.laidOut.within hn).placed.solid.evaluated

variable (hw : w.On root) (hvisit : w.Visits root visit)
include hw hvisit

omit hw in
/-- Types may stand between a name and its initial value. -/
lemma row_binding {name initializer : Option Node} (types : List Node)
    (hname : ∀ c ∈ name.toList, c.Within root) (hproper : ∀ c ∈ name.toList, c.Proper w.source)
    (hinitializer : ∀ c ∈ initializer.toList, c.Within root) :
    w.Row root (name.toList ++ types ++ initializer.toList) (w.binding visit name initializer) := by
  cases name with
  | none => exact .none
  | some n =>
    have hrow : w.Row root [n]
        (if n.kind == .token .identifier then w.lookup n else visit n) := by
      split
      · exact row_lookup (o := some n) hproper
      · exact hvisit (some n) hname
    exact (hrow.skip types).append (hvisit initializer hinitializer)

lemma row_declaration (hn : n.Within root) : w.Row root [n] (w.declaration visit n) := by
  have hlaid := hw.laidOut.within hn
  unfold declaration
  split
  case h_1 name definite type initializer hform =>
    have hproper := hw.proper_parts hn hform
    obtain ⟨hnames, hinitializer⟩ := List.forall_mem_append.mp (within_parts hn hform)
    obtain ⟨hname, _⟩ := List.forall_mem_append.mp hnames
    have hrow := row_binding hvisit type.toList hname hproper hinitializer
    exact .close hlaid hform hrow fun r _ => .of_form hform rfl trivial
  case h_2 parts hform =>
    have hproper := hw.proper_parts hn hform
    obtain ⟨hnames, hinitializer⟩ := List.forall_mem_append.mp (within_parts hn hform)
    obtain ⟨hnames, _⟩ := List.forall_mem_append.mp hnames
    obtain ⟨_, hname⟩ := List.forall_mem_append.mp hnames
    have hrow := (row_binding hvisit parts.declaredType.toList hname hproper hinitializer).behind
      (itemsOf parts.modifiers)
    refine .close hlaid hform ?_ fun r _ => .of_form hform rfl trivial
    change w.Row root (ParameterParts.children parts) _
    simpa [ParameterParts.children] using hrow
  case h_3 isRest propertyName name initializer hform =>
    have hproper := hw.proper_parts hn hform
    obtain ⟨hnames, hinitializer⟩ := List.forall_mem_append.mp (within_parts hn hform)
    obtain ⟨_, hname⟩ := List.forall_mem_append.mp hnames
    have hrow := (row_binding hvisit [] hname hproper hinitializer).behind propertyName.toList
    refine .close hlaid hform ?_ fun r _ => .of_form hform rfl trivial
    change w.Row root (propertyName.toList ++ name.toList ++ initializer.toList) _
    simpa using hrow
  case h_4 => exact .none

lemma row_declarations {ns : List Node} (hns : ∀ n ∈ ns, n.Within root) :
    w.Row root ns (ns.flatMap (w.declaration visit)) :=
  .flatMap fun n hn => row_declaration hw hvisit (hns n hn)

omit hw hvisit in
/-- What an assignment changes. -/
lemma row_target (hproper : ∀ c ∈ o.toList, c.Proper w.source)
    (hshown : ∀ c ∈ o.toList, Expressed root c) : w.Row root o.toList (w.target o) := by
  cases o with
  | none => exact .none
  | some n =>
    unfold target
    dsimp only
    split
    · exact row_lookup (o := some n) hproper
    split
    · exact row_pastExpression (o := some n) hshown
    · exact .none

lemma row_loopInitializer (ho : ∀ c ∈ o.toList, c.Within root)
    (hshown : ∀ c ∈ o.toList, Expressed root c) :
    w.Row root o.toList (w.loopInitializer visit o) := by
  unfold loopInitializer
  split
  case h_1 pos stop keyword declarations =>
    have hlist := ho _ (.head _)
    have hrow := row_declarations hw hvisit (within_parts hlist rfl)
    exact .close (hw.laidOut.within hlist) rfl hrow fun r _ => .of_form rfl rfl trivial
  case h_2 => exact row_pastExpression hshown

omit hw in
lemma row_incrementor (ho : ∀ c ∈ o.toList, c.Within root)
    (hshown : ∀ c ∈ o.toList, Expressed root c) :
    w.Row root o.toList (w.incrementor visit o) := by
  cases o with
  | none => exact .none
  | some n =>
    unfold incrementor
    dsimp only
    split
    · exact hvisit (some n) ho
    · exact row_pastExpression (o := some n) hshown

omit hw in
lemma row_visits {ns : List Node} (hns : ∀ n ∈ ns, n.Within root) :
    w.Row root ns (ns.flatMap fun n => visit (some n)) :=
  .flatMap fun n hn => hvisit (some n) (by simpa using hns n hn)

lemma row_clause (hn : n.Within root) : w.Row root [n] (w.clause visit n) := by
  have hlaid := hw.laidOut.within hn
  unfold clause
  split
  case h_1 expression statements hform =>
    obtain ⟨_, hstatements⟩ := List.forall_mem_append.mp (within_parts hn hform)
    have hlabel : w.Row root expression.toList (w.expression expression) :=
      row_expression (hw.expressed_parts hn hform) fun c hc => .inl ⟨n, hn, statements, hc ▸ hform⟩
    exact .close hlaid hform (hlabel.append (row_visits hvisit hstatements)) fun r _ =>
      .of_form hform rfl trivial
  case h_2 statements hform =>
    exact .close hlaid hform (row_visits hvisit (within_parts hn hform)) fun r _ =>
      .of_form hform rfl trivial
  case h_3 => exact .none

lemma row_clauses (hn : n.Within root) : w.Row root [n] (w.clauses visit n) := by
  unfold clauses
  split
  case h_1 clauses hform =>
    have hrow : w.Row root clauses.items (clauses.items.flatMap (w.clause visit)) :=
      .flatMap fun c hc => row_clause hw hvisit (within_parts hn hform c hc)
    exact .close (hw.laidOut.within hn) hform hrow fun r _ => .of_form hform rfl trivial
  case h_2 => exact .none

omit hw in
lemma row_children (hn : n.Within root) : w.Row root n.form.children (children visit n) :=
  row_visits hvisit (within_parts hn rfl)

end

/-! ## Scopes around the token -/

section

variable {w : Walk} {root n : Node} {o : Option Node} {visit : Visit} {rs ts : List Reported}

/-- The scopes are known by their kind and their range. -/
lemma On.mem_scopes (hw : w.On root) (hn : n.Within root) (hgate : n.form.isGate = true)
    (hlt : n.pos < n.stop) (h : w.isLocated n = true) : n ∈ w.scopes := by
  obtain ⟨scope, hscope, hsame⟩ := List.any_eq_true.mp h
  simp only [Bool.and_eq_true, beq_iff_eq] at hsame
  obtain ⟨⟨hkind, hpos⟩, hstop⟩ := hsame
  have heq := hw.laidOut.eq_of_range (hw.scopes scope hscope) hn hgate hkind hpos hstop hlt
  exact heq ▸ hscope

lemma mem_lookup {r : Reported} (h : r ∈ w.lookup o) : o = some r.node := by
  unfold lookup at h
  split at h
  case h_3 => simp at h
  all_goals
    split at h
    case isTrue => rw [List.mem_singleton.mp h]; rfl
    case isFalse => simp at h

lemma mem_condition {r : Reported} (h : r ∈ w.condition n o) : o = some r.node := by
  have hexpression (c : Node) (h : r ∈ w.expressionOf c) : some c = some r.node := by
    unfold expressionOf at h
    dsimp only at h
    split at h
    · simp at h
    · rw [List.mem_singleton.mp h]; rfl
  unfold condition at h
  cases o with
  | none => split at h <;> simp [expression, pastExpression] at h
  | some c =>
    split at h
    · exact hexpression c h
    · unfold pastExpression at h
      dsimp only at h
      split at h
      · exact hexpression c h
      · simp at h

variable (hw : w.On root) (hn : n.Within root) (hlt : n.pos < n.stop)
include hw hn hlt

/-- A node that counts in full if it is a scope around the token. -/
lemma row_gate {form : Form Node} (hform : n.form = form) (hgate : form.isGate = true)
    (htype : form.kind.isType = false) (hrow : w.Row root form.children rs)
    (hlets : w.isLocated n = false → ∀ r ∈ rs, form.LetsOut r.node) : w.Row root [n] rs := by
  subst hform
  refine .close (hw.laidOut.within hn) rfl hrow fun r hr => ⟨htype, ?_⟩
  cases hlocated : w.isLocated n with
  | true => exact .inl (hw.mem_scopes hn hgate hlt hlocated)
  | false => exact .inr (hlets hlocated r hr)

lemma row_condition (hgate : n.form.isGate = true) (ho : ∀ c ∈ o.toList, Expressed root c)
    (hahead : ∀ c, o = some c → n.form.shownAhead = some c) :
    w.Row root o.toList (w.condition n o) := by
  unfold condition
  split
  case isTrue h =>
    have hscope := hw.mem_scopes hn hgate hlt h
    exact row_expression ho fun c hc => .inr ⟨n, hscope, hahead c hc⟩
  case isFalse => exact row_pastExpression ho

end

/-! ## The walk -/

section

variable {w : Walk} {root n : Node} {visit : Visit} {rs ts : List Reported}
variable (hw : w.On root) (hvisit : w.Visits root visit)
include hw hvisit

lemma row_function {parts : FunctionParts Node} (hparts : ∀ c ∈ parts.children, c.Within root)
    (hname : w.Row root parts.name.toList rs) :
    w.Row root parts.children (rs ++ w.function visit n parts) := by
  obtain ⟨hfront, hbody⟩ := List.forall_mem_append.mp hparts
  obtain ⟨hfront, _⟩ := List.forall_mem_append.mp hfront
  obtain ⟨_, hparameters⟩ := List.forall_mem_append.mp hfront
  have hhead := (hname.behind (itemsOf parts.modifiers)).skip (itemsOf parts.typeParameters)
  unfold function
  split
  case isTrue =>
    have hrow := (hhead.append (row_declarations hw hvisit hparameters)).skip
      parts.returnType.toList
    rw [← List.append_assoc]
    exact hrow.append (hvisit _ hbody)
  case isFalse =>
    rw [List.append_nil]
    exact ((hhead.skip parts.parameters.items).skip parts.returnType.toList).skip _

omit hw in
lemma row_classMembers {parts : ClassParts Node} (hparts : ∀ c ∈ parts.children, c.Within root)
    (hname : w.Row root parts.name.toList rs) :
    w.Row root parts.children (rs ++ w.classMembers visit n parts) := by
  obtain ⟨_, hmembers⟩ := List.forall_mem_append.mp hparts
  have hhead := ((hname.behind (itemsOf parts.modifiers)).skip (itemsOf parts.typeParameters)).skip
    (itemsOf parts.heritage)
  unfold classMembers
  split
  case isTrue => exact hhead.append (row_visits hvisit hmembers)
  case isFalse =>
    rw [List.append_nil]
    exact hhead.skip _

end

section

variable {w : Walk} {root n : Node} {o : Option Node} {visit : Visit} {cs : List Node}
variable {rs ts : List Reported} {form : Form Node}
variable (hw : w.On root) (hn : n.Within root) (hlt : n.pos < n.stop) (hform : n.form = form)
variable (hgate : form.isGate = true) (htype : form.kind.isType = false)
include hw hn hlt hform

include hgate htype in
/-- A node from which nothing is reported unless it is a scope around the token. -/
lemma row_enclosed (hrow : n ∈ w.scopes → w.Row root form.children rs) :
    w.Row root [n] (w.within n rs) := by
  unfold within
  split
  case isTrue h =>
    have hscope := hw.mem_scopes hn (hform ▸ hgate) hlt h
    exact .close (hw.laidOut.within hn) hform (hrow hscope) fun r _ =>
      ⟨by rwa [Node.kind, hform], .inl hscope⟩
  case isFalse => exact .none

include hgate htype in
/-- A statement that begins with its condition.  The rest counts if the statement is a scope around
the token. -/
lemma row_conditional (hchildren : form.children = o.toList ++ cs)
    (hlets : ∀ m : Node, (∃ c ∈ o, m.Within c) → form.LetsOut m)
    (hcondition : w.Row root o.toList rs) (hrest : w.Row root cs ts) :
    w.Row root [n] (rs ++ w.within n ts) := by
  have hrow : w.Row root form.children (rs ++ w.within n ts) := by
    rw [hchildren]
    exact hcondition.append (row_within hrest)
  refine row_gate hw hn hlt hform hgate htype hrow fun hlocated r hr => ?_
  obtain ⟨c, hc, hin⟩ : ∃ c ∈ o.toList, w.Inside root c r := by
    refine hcondition.inside r ?_
    simpa [within, hlocated] using hr
  exact hlets r.node ⟨c, by simpa using hc, hin.within⟩

/-- The condition of a loop is reported before its body, although it stands behind it. -/
lemma row_doStatement {body condition : Option Node} (hdo : form = .doStatement body condition)
    (hcondition : ∀ c ∈ condition.toList, Expressed root c) (hbody : w.Row root body.toList ts) :
    w.Row root [n] (w.condition n condition ++ w.within n ts) := by
  subst hdo
  have hgate : n.form.isGate = true := by rw [hform]; rfl
  have hahead : ∀ c, condition = some c → n.form.shownAhead = some c := by
    intro c hc
    rw [hform, hc]
    rfl
  have hrow := row_condition hw hn hlt hgate hcondition hahead
  have hboth : w.Row root (body.toList ++ condition.toList)
      (w.condition n condition ++ w.within n ts) := by
    have hswapped := (row_within hbody (n := n)).append hrow
    refine ⟨fun r hr => hswapped.inside r ?_, fun hfits => ?_⟩
    · simpa [or_comm] using hr
    obtain ⟨p, hbodyFits, hconditionFits⟩ := hfits.split
    refine List.pairwise_append.mpr
      ⟨hrow.ordered hconditionFits, (row_within hbody).ordered hbodyFits, fun x hx y hy => .inr ?_⟩
    cases hlocated : w.isLocated n with
    | false => simp [within, hlocated] at hy
    | true =>
      obtain ⟨b, hb, hin⟩ := (row_within hbody).inside y hy
      have hbodySome : body = some b := by simpa using hb
      refine ⟨n, hw.mem_scopes hn hgate hlt hlocated, b, ?_, hin.within⟩
      rw [hform, hbodySome, mem_condition hx]
  refine row_gate hw hn hlt hform rfl rfl hboth fun hlocated r hr => ?_
  obtain ⟨c, hc, hin⟩ : ∃ c ∈ condition.toList, w.Inside root c r := by
    refine hrow.inside r ?_
    simpa [within, hlocated] using hr
  exact ⟨c, by simpa using hc, hin.within⟩

end

section

variable {w : Walk} {root n : Node} {visit : Visit}
variable (hw : w.On root) (hvisit : w.Visits root visit)
include hw hvisit

/-- An expression that changes a variable, or else everything inside it counts. -/
lemma row_assignment {form : Form Node} {rs : List Reported} (hn : n.Within root)
    (hform : n.form = form) (htype : form.kind.isType = false) (hlets : ∀ m, form.LetsOut m)
    (htarget : isAssignment n = true → w.Row root form.children rs) :
    w.Row root [n] (if isAssignment n then rs else children visit n) := by
  have hrow : w.Row root form.children (if isAssignment n then rs else children visit n) := by
    split
    case isTrue hassigns => exact htarget hassigns
    case isFalse => exact hform ▸ row_children hvisit hn
  exact .close (hw.laidOut.within hn) hform hrow fun r _ => .of_form hform htype (hlets r.node)

end

/-! ## One construct each -/

section

variable {w : Walk} {root n : Node} {visit : Visit} {rs : List Reported} {form : Form Node}
variable (hw : w.On root) (hvisit : w.Visits root visit) (hn : n.Within root)
include hw hn

lemma row_propertyAssignment {name : Node} {initializer : Option Node}
    (hform : n.form = .propertyAssignment name initializer) :
    w.Row root [n] (w.pastExpression initializer) := by
  have hrow : w.Row root initializer.toList (w.pastExpression initializer) :=
    row_pastExpression (hw.expressed_parts hn hform)
  exact .close (hw.laidOut.within hn) hform (hrow.behind [name]) fun r _ =>
    .of_form hform rfl trivial

lemma row_shorthandPropertyAssignment {name : Node} {initializer : Option Node}
    (hform : n.form = .shorthandPropertyAssignment name initializer) :
    w.Row root [n] (w.pastExpression name) := by
  have hrow : w.Row root [name] (w.pastExpression name) :=
    row_pastExpression (o := some name) (hw.expressed_parts hn hform)
  exact .close (hw.laidOut.within hn) hform (hrow.skip initializer.toList) fun r _ =>
    .of_form hform rfl trivial

include hvisit

lemma row_binary {left : Node} {operator : TokenKind} {right : Option Node}
    (hform : n.form = .binary left operator right) :
    w.Row root [n]
      (if isAssignment n then w.target left ++ visit right else children visit n) := by
  obtain ⟨hleft, hright⟩ := List.forall_mem_cons.mp (within_parts hn hform)
  refine row_assignment hw hvisit hn hform rfl (fun _ => trivial) fun hassigns => ?_
  have htarget : w.Row root [left] (w.target left) := by
    have hshown := hw.expressed_parts hn hform
    rw [Form.shown, if_pos (by simpa [isAssignment, hform] using hassigns)] at hshown
    exact row_target (o := some left) (hw.proper_parts hn hform) hshown
  exact htarget.append (hvisit _ hright)

lemma row_prefixUnary {operator : TokenKind} {operand : Option Node}
    (hform : n.form = .prefixUnary operator operand) :
    w.Row root [n] (if isAssignment n then w.target operand else children visit n) := by
  refine row_assignment hw hvisit hn hform rfl (fun _ => trivial) fun hassigns => ?_
  have hproper := hw.proper_parts hn hform
  have hshown := hw.expressed_parts hn hform
  have hstep : operator = .plusPlus ∨ operator = .minusMinus := by
    simpa [isAssignment, hform, isStep] using hassigns
  rcases hstep with rfl | rfl <;> exact row_target hproper hshown

lemma row_postfixUnary {operand : Node} {operator : TokenKind}
    (hform : n.form = .postfixUnary operand operator) :
    w.Row root [n] (if isAssignment n then w.target operand else children visit n) :=
  row_assignment hw hvisit hn hform rfl (fun _ => trivial) fun _ =>
    row_target (o := some operand) (hw.proper_parts hn hform) (hw.expressed_parts hn hform)

variable (hlt : n.pos < n.stop)
include hlt

/-- A function.  Unless it is a scope around the token, its name alone is reported. -/
lemma row_functionOf {parts : FunctionParts Node} (hform : n.form = form)
    (hgate : form.isGate = true) (htype : form.kind.isType = false)
    (hchildren : form.children = parts.children) (hname : w.Row root parts.name.toList rs)
    (hlets : ∀ r ∈ rs, form.LetsOut r.node) :
    w.Row root [n] (rs ++ w.function visit n parts) := by
  have hparts := within_parts hn hform
  rw [hchildren] at hparts
  have hrow := row_function (n := n) hw hvisit hparts hname
  rw [← hchildren] at hrow
  refine row_gate hw hn hlt hform hgate htype hrow fun h r hr => hlets r ?_
  simpa [function, h] using hr

/-- A class.  Unless it is a scope around the token, its name alone is reported. -/
lemma row_classOf {parts : ClassParts Node} (hform : n.form = form)
    (hgate : form.isGate = true) (htype : form.kind.isType = false)
    (hchildren : form.children = parts.children) (hname : w.Row root parts.name.toList rs)
    (hlets : ∀ r ∈ rs, form.LetsOut r.node) :
    w.Row root [n] (rs ++ w.classMembers visit n parts) := by
  have hparts := within_parts hn hform
  rw [hchildren] at hparts
  have hrow := row_classMembers (n := n) hvisit hparts hname
  rw [← hchildren] at hrow
  refine row_gate hw hn hlt hform hgate htype hrow fun h r hr => hlets r ?_
  simpa [classMembers, h] using hr

lemma row_ifStatement {condition thenBranch elseBranch : Option Node}
    (hform : n.form = .ifStatement condition thenBranch elseBranch) :
    w.Row root [n] ((if isParenthesizedAssignment condition then visit condition
      else w.condition n condition) ++ w.within n (visit thenBranch ++ visit elseBranch)) := by
  obtain ⟨hparts, helse⟩ := List.forall_mem_append.mp (within_parts hn hform)
  obtain ⟨hcondition, hthen⟩ := List.forall_mem_append.mp hparts
  refine row_conditional hw hn hlt hform rfl rfl (List.append_assoc ..) (fun _ => id) ?_
    ((hvisit _ hthen).append (hvisit _ helse))
  split
  · exact hvisit _ hcondition
  · exact row_condition hw hn hlt (by rw [hform]; rfl) (hw.expressed_parts hn hform)
      fun c hc => by rw [hform, hc]; rfl

lemma row_forStatement {initializer condition incrementor body : Option Node}
    (hform : n.form = .forStatement initializer condition incrementor body) :
    w.Row root [n] (w.within n (w.loopInitializer visit initializer ++ w.expression condition ++
      w.incrementor visit incrementor ++ visit body)) := by
  obtain ⟨hparts, hbody⟩ := List.forall_mem_append.mp (within_parts hn hform)
  obtain ⟨hparts, hincrementor⟩ := List.forall_mem_append.mp hparts
  obtain ⟨hinitializer, _⟩ := List.forall_mem_append.mp hparts
  obtain ⟨hshown, hincrementorShown⟩ :=
    List.forall_mem_append.mp (hw.expressed_parts hn hform)
  obtain ⟨hinitializerShown, hconditionShown⟩ := List.forall_mem_append.mp hshown
  refine row_enclosed hw hn hlt hform rfl rfl fun hscope => ?_
  have hrow : w.Row root condition.toList (w.expression condition) :=
    row_expression hconditionShown fun c hc => .inr ⟨n, hscope, by rw [hform, hc]; rfl⟩
  have hhead := (row_loopInitializer hw hvisit hinitializer hinitializerShown).append hrow
  exact (hhead.append (row_incrementor hvisit hincrementor hincrementorShown)).append
    (hvisit _ hbody)

/-- A loop over something.  What it runs over is reported as long as the loop goes on. -/
lemma row_loopOver {initializer expression body : Option Node} (hform : n.form = form)
    (hgate : form.isGate = true) (htype : form.kind.isType = false)
    (hchildren : form.children = initializer.toList ++ expression.toList ++ body.toList)
    (hshown : form.shown = initializer.toList ++ expression.toList)
    (hahead : form.shownAhead = expression) :
    w.Row root [n] (w.within n
      (w.loopInitializer visit initializer ++ w.expression expression ++ visit body)) := by
  have hparts := within_parts hn hform
  rw [hchildren] at hparts
  obtain ⟨hparts, hbody⟩ := List.forall_mem_append.mp hparts
  obtain ⟨hinitializer, _⟩ := List.forall_mem_append.mp hparts
  have hexpressed := hw.expressed_parts hn hform
  rw [hshown] at hexpressed
  obtain ⟨hinitializerShown, hexpressionShown⟩ := List.forall_mem_append.mp hexpressed
  refine row_enclosed hw hn hlt hform hgate htype fun hscope => ?_
  have hrow : w.Row root expression.toList (w.expression expression) :=
    row_expression hexpressionShown fun c hc => .inr ⟨n, hscope, by rw [hform, hahead, hc]⟩
  rw [hchildren]
  exact ((row_loopInitializer hw hvisit hinitializer hinitializerShown).append hrow).append
    (hvisit _ hbody)

lemma row_whileStatement {condition body : Option Node}
    (hform : n.form = .whileStatement condition body) :
    w.Row root [n] (w.condition n condition ++ w.within n (visit body)) := by
  obtain ⟨_, hbody⟩ := List.forall_mem_append.mp (within_parts hn hform)
  refine row_conditional hw hn hlt hform rfl rfl rfl (fun _ => id) ?_ (hvisit _ hbody)
  exact row_condition hw hn hlt (by rw [hform]; rfl) (hw.expressed_parts hn hform)
    fun c hc => by rw [hform, hc]; rfl

lemma row_switchStatement {expression : Option Node} {cases : Node}
    (hform : n.form = .switchStatement expression cases) :
    w.Row root [n] (w.condition n expression ++ w.within n (w.clauses visit cases)) := by
  obtain ⟨_, hcases⟩ := List.forall_mem_append.mp (within_parts hn hform)
  refine row_conditional hw hn hlt hform rfl rfl rfl (fun _ => id) ?_
    (row_clauses hw hvisit (hcases cases (.head _)))
  exact row_condition hw hn hlt (by rw [hform]; rfl) (hw.expressed_parts hn hform)
    fun c hc => by rw [hform, hc]; rfl

lemma row_catchClause {binding : Option Node} {block : Node}
    (hform : n.form = .catchClause binding block) :
    w.Row root [n]
      (w.within n (binding.toList.flatMap (w.declaration visit) ++ visit block)) := by
  obtain ⟨hbinding, hblock⟩ := List.forall_mem_append.mp (within_parts hn hform)
  exact row_enclosed hw hn hlt hform rfl rfl fun _ =>
    (row_declarations hw hvisit hbinding).append (hvisit (some block) hblock)

/-- Any other node.  Whatever is reported of its parts is reported of it. -/
lemma row_other (htype : n.form.kind.isType = false)
    (hblock : n.form.isBlock = true → w.isLocated n = true)
    (hlets : n.form.isBlock = false → ∀ m, n.form.LetsOut m) :
    w.Row root [n] (children visit n) := by
  refine .close (hw.laidOut.within hn) rfl (row_children hvisit hn) fun r _ => ⟨htype, ?_⟩
  cases h : n.form.isBlock with
  | true => exact .inl (hw.mem_scopes hn (by simp [Form.isGate, h]) hlt (hblock h))
  | false => exact .inr (hlets h r.node)

end

/-! ## The walk -/

section

variable {w : Walk} {root n : Node} {visit : Visit}
variable (hw : w.On root) (hvisit : w.Visits root visit)
include hw hvisit

/-- What the walk of a node reports, construct by construct. -/
theorem row_form (hn : n.Within root) (henters : w.enters n = true) :
    w.Row root [n] (w.form visit n) := by
  simp only [enters, Bool.and_eq_true, decide_eq_true_eq, Bool.not_eq_true', Bool.or_eq_true]
    at henters
  obtain ⟨⟨⟨hlt, hlocated⟩, -⟩, htype⟩ := henters
  unfold form
  split
  case h_1 | h_2 | h_3 => exact row_declaration hw hvisit hn
  case h_4 hform => exact row_propertyAssignment hw hn hform
  case h_5 hform => exact row_shorthandPropertyAssignment hw hn hform
  case h_6 parts hform =>
    have hname : w.Row root parts.name.toList (w.lookup parts.name) :=
      row_lookup (hw.proper_parts hn hform)
    exact row_functionOf hw hvisit hn hlt hform rfl rfl rfl hname fun r => mem_lookup
  case h_7 hform | h_8 hform =>
    exact row_functionOf hw hvisit hn hlt hform rfl rfl rfl .none (by simp)
  case h_9 parts hform =>
    have hname : w.Row root parts.name.toList (w.lookup parts.name) :=
      row_lookup (hw.proper_parts hn hform)
    exact row_classOf hw hvisit hn hlt hform rfl rfl rfl hname fun r => mem_lookup
  case h_10 hform => exact row_classOf hw hvisit hn hlt hform rfl rfl rfl .none (by simp)
  case h_11 hform => exact row_ifStatement hw hvisit hn hlt hform
  case h_12 hform => exact row_forStatement hw hvisit hn hlt hform
  case h_13 hform | h_14 hform =>
    exact row_loopOver hw hvisit hn hlt hform rfl rfl rfl rfl rfl
  case h_15 hform => exact row_whileStatement hw hvisit hn hlt hform
  case h_16 body condition hform =>
    obtain ⟨hbody, _⟩ := List.forall_mem_append.mp (within_parts hn hform)
    exact row_doStatement hw hn hlt hform rfl (hw.expressed_parts hn hform) (hvisit _ hbody)
  case h_17 hform => exact row_switchStatement hw hvisit hn hlt hform
  case h_18 | h_19 => exact row_clause hw hvisit hn
  case h_20 hform => exact row_catchClause hw hvisit hn hlt hform
  case h_21 hform => exact row_binary hw hvisit hn hform
  case h_22 hform => exact row_prefixUnary hw hvisit hn hform
  case h_23 hform => exact row_postfixUnary hw hvisit hn hform
  case h_24 =>
    refine row_other hw hvisit hn hlt htype (fun hblock => ?_) fun hblock m => ?_
    · rw [Form.isBlock_eq] at hblock
      simpa [Node.is, Node.kind, hblock] using hlocated
    · unfold Form.LetsOut
      split
      all_goals first | trivial | grind [Form.isBlock]

end

theorem visits_values {w : Walk} {root : Node} (hw : w.On root) (depth : Nat) :
    w.Visits root (w.values depth) := by
  induction depth with
  | zero => exact fun o _ => .none
  | succ depth ih =>
    intro o ho
    cases o with
    | none => exact .none
    | some n =>
      unfold values
      split
      case isTrue henters => exact row_form hw ih (ho n (.head _)) henters
      case isFalse => exact .none

end Walk

end InlineValues
