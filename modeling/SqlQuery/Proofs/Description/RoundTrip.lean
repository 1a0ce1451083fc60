import SqlQuery.Proofs.Calendar.Text
import SqlQuery.Proofs.Description.Trimmed

/-!
# Descriptions survive their JSON

What is written for a query description is read as the same description, at every depth and for every kind of value,
table, join, condition and union.  It still is when default fields are left out.

* `Query.Storable` — a description whose integers have 64 bits and whose floats are finite;
* `Column.readsAs`, `OrderBy.readsAs`, `Aggregate.readsAs`, `Lock.readsAs` — the parts without queries inside;
* `Value.readsAs` … `Query.readsAs` — the others, by recursion on the description;
* `Query.decode_encode` — **the round trip**; `Query.eq_of_encode_eq` — different descriptions have different trees.
-/

namespace SqlQuery

open SqlQuery.Json SqlQuery.Number SqlQuery.Calendar

/-! ### Scalars -/

theorem readsAs_string (s : String) : ReadsAs (fun _ => Json.string?) (.string s) s :=
  .leaf rfl fun _ => rfl

theorem readsAs_strings (ss : List String) :
    List.Forall₂ (ReadsAs fun _ => Json.string?) (ss.map .string) ss :=
  List.forall₂_map_left_iff.2 (List.forall₂_same.2 fun s _ => readsAs_string s)

theorem readsAs_bool (b : Bool) : ReadsAs (fun _ => Json.bool?) (.bool b) b :=
  .leaf rfl fun _ => rfl

theorem readsAs_int {n : Int} (h : fitsInt64 n = true) : ReadsAs (fun _ => Json.int64?) (.int n) n :=
  .leaf rfl fun _ => if_pos h

theorem readsAs_float {x : Float} (h : x.isFinite = true) : ReadsAs (fun _ => Json.float?) (.float x) x :=
  .leaf rfl fun _ => if_pos h

theorem readsAs_chars {α : Type} {read : List Char → Option α} {text : List Char} {a : α} (h : read text = some a) :
    ReadsAs (fun _ => Json.read read) (.chars text) a :=
  .leaf rfl fun _ => by rw [Json.chars, Json.read, String.toList_ofList, h]

theorem orNull_map {α : Type} (o : Option α) (encode : α → Json) :
    Json.orNull (o.map encode) = o.elim .null encode := by
  cases o <;> rfl

theorem Action.readsAs (a : Action) : ReadsAs Action.decode (.string a.tag) a :=
  .enumerated (by cases a <;> rfl)

theorem JoinKind.readsAs (k : JoinKind) : ReadsAs JoinKind.decode (.string k.tag) k :=
  .enumerated (by cases k <;> rfl)

theorem SetOp.readsAs (o : SetOp) : ReadsAs SetOp.decode (.string o.tag) o :=
  .enumerated (by cases o <;> rfl)

theorem SortOrder.readsAs (o : SortOrder) : ReadsAs SortOrder.decode (.string o.tag) o :=
  .enumerated (by cases o <;> rfl)

theorem DatePart.readsAs (p : DatePart) : ReadsAs DatePart.decode (.string p.tag) p :=
  .enumerated (by cases p <;> rfl)

theorem AggregateFunc.readsAs (f : AggregateFunc) : ReadsAs AggregateFunc.decode (.string f.tag) f :=
  .enumerated (by cases f <;> rfl)

/-! ### Parts without queries -/

variable (r : Reading)

theorem Column.readsAs (c : Column) : ReadsAs (Column.decode r) c.encode c := by
  cases c with
  | star => exact .leaf rfl fun n => by cases n <;> rfl
  | named name => exact .tagged rfl ((readsAs_string name).map Column.named)
  | raw sql => exact .tagged rfl ((readsAs_string sql).map Column.raw)
  | aliased name label =>
    refine .tagged rfl (.record (by simp) (fun _ _ => rfl) fun n get hfields => ?_)
    simp only [List.forall_mem_cons] at hfields
    obtain ⟨hname, hlabel, -⟩ := hfields
    have hname := hname.required nofun (readsAs_string name)
    have hlabel := hlabel.required nofun (readsAs_string label)
    simp only [hname, hlabel, Option.bind_eq_bind, Option.bind_some, Option.pure_def]

theorem Column.readsAs_all (cs : List Column) :
    List.Forall₂ (ReadsAs (Column.decode r)) (cs.map Column.encode) cs :=
  List.forall₂_map_left_iff.2 (List.forall₂_same.2 fun c _ => c.readsAs r)

theorem OrderBy.readsAs (o : OrderBy) : ReadsAs (OrderBy.decode r) o.encode o := by
  cases o with
  | random => exact .leaf rfl fun n => by cases n <;> rfl
  | raw sql => exact .tagged rfl ((readsAs_string sql).map OrderBy.raw)
  | column c order =>
    refine .tagged rfl (.record (by simp) (fun _ _ => rfl) fun n get hfields => ?_)
    simp only [List.forall_mem_cons] at hfields
    obtain ⟨hcolumn, horder, -⟩ := hfields
    have hcolumn := hcolumn.required nofun (readsAs_string c)
    have horder := horder.required nofun order.readsAs
    simp only [hcolumn, horder, Option.bind_eq_bind, Option.bind_some, Option.pure_def]

theorem OrderBy.readsAs_all (os : List OrderBy) :
    List.Forall₂ (ReadsAs (OrderBy.decode r)) (os.map OrderBy.encode) os :=
  List.forall₂_map_left_iff.2 (List.forall₂_same.2 fun o _ => o.readsAs r)

theorem Aggregate.readsAs (a : Aggregate) : ReadsAs Aggregate.decode a.encode a := by
  refine .record (by simp) (fun _ _ => rfl) fun n get hfields => ?_
  simp only [List.forall_mem_cons] at hfields
  obtain ⟨hfunc, hcolumn, -⟩ := hfields
  have hfunc := hfunc.required nofun a.func.readsAs
  have hcolumn := hcolumn.required nofun (readsAs_string a.column)
  simp only [hfunc, hcolumn, Option.bind_eq_bind, Option.bind_some, Option.pure_def]

theorem Lock.readsAs (l : Lock) : ReadsAs Lock.decode l.encode l := by
  cases l with
  | forUpdate => exact .leaf rfl fun n => by cases n <;> rfl
  | raw sql => exact .tagged rfl ((readsAs_string sql).map Lock.raw)

/-! ### Descriptions that can be written -/

mutual

/-- The integers in the value have 64 bits, and the floats are finite. -/
def Value.Storable : Value → Prop
  | .int n => fitsInt64 n = true
  | .float x => x.isFinite = true
  | .list items => Value.AllStorable items
  | .subquery q => q.Storable
  | .null | .bool _ | .string _ | .date _ | .time _ | .timestamp _ | .raw _ | .column _ => True

def Value.AllStorable : List Value → Prop
  | [] => True
  | v :: vs => v.Storable ∧ Value.AllStorable vs

def TableRef.Storable : TableRef → Prop
  | .named _ => True
  | .raw _ bindings => Value.AllStorable bindings
  | .subquery q _ => q.Storable
  | .procedure _ args => Value.AllStorable args

def TableRef.OptionalStorable : Option TableRef → Prop
  | none => True
  | some t => t.Storable

def Join.Storable : Join → Prop
  | ⟨_, table, on⟩ => table.Storable ∧ Filter.OptionalStorable on

def Join.AllStorable : List Join → Prop
  | [] => True
  | j :: js => j.Storable ∧ Join.AllStorable js

def Filter.Storable : Filter → Prop
  | .and children => Filter.AllStorable children
  | .or children => Filter.AllStorable children
  | .not inner => inner.Storable
  | .predicate c => c.Storable
  | .raw _ bindings => Value.AllStorable bindings

def Filter.AllStorable : List Filter → Prop
  | [] => True
  | f :: fs => f.Storable ∧ Filter.AllStorable fs

def Filter.OptionalStorable : Option Filter → Prop
  | none => True
  | some f => f.Storable

def Predicate.Storable : Predicate → Prop
  | .compare _ _ value _ => value.Storable
  | .isIn _ values _ => Value.AllStorable values
  | .inSelect _ q _ => q.Storable
  | .isNull _ _ => True
  | .datePart _ _ _ value => value.Storable
  | .rowExists q _ => q.Storable

def Branch.AllStorable : List Branch → Prop
  | [] => True
  | ⟨_, q⟩ :: bs => q.Storable ∧ Branch.AllStorable bs

def Assignment.AllStorable : List Assignment → Prop
  | [] => True
  | ⟨_, value⟩ :: as => value.Storable ∧ Assignment.AllStorable as

/-- The integers in the query have 64 bits, and the floats are finite. -/
def Query.Storable : Query → Prop
  | ⟨_, table, _, _, joins, filter, _, having, _, limit, offset, _, branches, _, assignments, _⟩ =>
    TableRef.OptionalStorable table ∧ Join.AllStorable joins ∧ Filter.OptionalStorable filter ∧
      Filter.OptionalStorable having ∧ (∀ n, limit = some n → fitsInt64 n = true) ∧
      (∀ n, offset = some n → fitsInt64 n = true) ∧ Branch.AllStorable branches ∧
      Assignment.AllStorable assignments

end

/-! ### Parts that are left out -/

theorem TableRef.encodeOptional_eq (t : Option TableRef) : encodeOptional t = t.elim .null encode := by
  cases t <;> rfl

theorem Filter.encodeOptional_eq (f : Option Filter) : encodeOptional f = f.elim .null encode := by
  cases f <;> rfl

theorem TableRef.encode_ne_null (t : TableRef) : t.encode ≠ .null := by
  cases t <;> exact nofun

theorem Filter.encode_ne_null (f : Filter) : f.encode ≠ .null := by
  cases f <;> exact nofun

theorem Lock.encode_ne_null (l : Lock) : l.encode ≠ .null := by
  cases l <;> exact nofun

variable {r} in
theorem readsAs_values {vs : List Value} (h : List.Forall₂ (ReadsAs (Value.decode r)) (Value.encodes vs) vs) :
    ReadsAs (Value.decodes r) (.array (Value.encodes vs)) vs :=
  .list (Value.decodes r) (fun _ _ => rfl) h

/-! ### The recursion -/

mutual

theorem Value.readsAs : (v : Value) → v.Storable → ReadsAs (Value.decode r) v.encode v
  | .null, _ => .leaf rfl fun n => by cases n <;> rfl
  | .bool b, _ => .tagged rfl ((readsAs_bool b).map Value.bool)
  | .int _, h => .tagged rfl ((readsAs_int h).map Value.int)
  | .float _, h => .tagged rfl ((readsAs_float h).map Value.float)
  | .string s, _ => .tagged rfl ((readsAs_string s).map Value.string)
  | .date d, _ => .tagged rfl ((readsAs_chars d.read?_text).map Value.date)
  | .time t, _ => .tagged rfl ((readsAs_chars (t.read?_text false)).map Value.time)
  | .timestamp t, _ => .tagged rfl ((readsAs_chars t.read?_text).map Value.timestamp)
  | .raw sql, _ => .tagged rfl ((readsAs_string sql).map Value.raw)
  | .column name, _ => .tagged rfl ((readsAs_string name).map Value.column)
  | .list items, h => .tagged rfl ((readsAs_values (Value.readsAs_all items h)).map Value.list)
  | .subquery q, h => .tagged rfl ((Query.readsAs q h).map Value.subquery)

theorem Value.readsAs_all : (vs : List Value) → Value.AllStorable vs →
    List.Forall₂ (ReadsAs (Value.decode r)) (Value.encodes vs) vs
  | [], _ => .nil
  | v :: vs, h => .cons (Value.readsAs v h.1) (Value.readsAs_all vs h.2)

theorem TableRef.readsAs : (t : TableRef) → t.Storable → ReadsAs (TableRef.decode r) t.encode t
  | .named name, _ => .tagged rfl ((readsAs_string name).map TableRef.named)
  | .raw sql bindings, h => by
    refine .tagged rfl (.record (by simp) (fun _ _ => rfl) fun n get hfields => ?_)
    simp only [List.forall_mem_cons] at hfields
    obtain ⟨hsql, hbindings, -⟩ := hfields
    have hsql := hsql.required nofun (readsAs_string sql)
    have hbindings := hbindings.items (Value.decodes r) rfl (fun _ _ => rfl) (Value.readsAs_all bindings h)
    simp only [hsql, hbindings, Option.bind_eq_bind, Option.bind_some, Option.pure_def]
  | .subquery q label, h => by
    refine .tagged rfl (.record (by simp) (fun _ _ => rfl) fun n get hfields => ?_)
    simp only [List.forall_mem_cons, orNull_map] at hfields
    obtain ⟨hquery, hlabel, -⟩ := hfields
    have hquery := hquery.required nofun (Query.readsAs q h)
    have hlabel := hlabel.optional rfl nofun fun s _ => readsAs_string s
    simp only [hquery, hlabel, Option.bind_eq_bind, Option.bind_some, Option.pure_def]
  | .procedure name args, h => by
    refine .tagged rfl (.record (by simp) (fun _ _ => rfl) fun n get hfields => ?_)
    simp only [List.forall_mem_cons] at hfields
    obtain ⟨hname, hargs, -⟩ := hfields
    have hname := hname.required nofun (readsAs_string name)
    have hargs := hargs.required nofun (readsAs_values (Value.readsAs_all args h))
    simp only [hname, hargs, Option.bind_eq_bind, Option.bind_some, Option.pure_def]

theorem TableRef.readsAs_optional : (t : Option TableRef) → TableRef.OptionalStorable t →
    ∀ t', t = some t' → ReadsAs (TableRef.decode r) t'.encode t'
  | none, _ => nofun
  | some t, h => fun t' ht' => by
    cases ht'
    exact TableRef.readsAs t h

theorem Join.readsAs : (j : Join) → j.Storable → ReadsAs (Join.decode r) j.encode j
  | ⟨kind, table, on⟩, h => by
    refine .record (by simp) (fun _ _ => rfl) fun n get hfields => ?_
    simp only [List.forall_mem_cons, Filter.encodeOptional_eq] at hfields
    obtain ⟨hkind, htable, hon, -⟩ := hfields
    have hkind := hkind.required nofun kind.readsAs
    -- a query may be without a table, a join may not
    have htable := htable.required (fun hnull => table.encode_ne_null (Option.some.inj hnull).symm)
      (TableRef.readsAs table h.1)
    have hon := hon.optional rfl Filter.encode_ne_null (Filter.readsAs_optional on h.2)
    simp only [hkind, htable, hon, Option.bind_eq_bind, Option.bind_some, Option.pure_def]

theorem Join.readsAs_all : (js : List Join) → Join.AllStorable js →
    List.Forall₂ (ReadsAs (Join.decode r)) (Join.encodes js) js
  | [], _ => .nil
  | j :: js, h => .cons (Join.readsAs j h.1) (Join.readsAs_all js h.2)

theorem Filter.readsAs : (f : Filter) → f.Storable → ReadsAs (Filter.decode r) f.encode f
  | .and children, h => .tagged rfl ((ReadsAs.list _ (fun _ _ => rfl) (Filter.readsAs_all children h)).map Filter.and)
  | .or children, h => .tagged rfl ((ReadsAs.list _ (fun _ _ => rfl) (Filter.readsAs_all children h)).map Filter.or)
  | .not inner, h => .tagged rfl ((Filter.readsAs inner h).map Filter.not)
  | .predicate c, h => .tagged rfl ((Predicate.readsAs c h).map Filter.predicate)
  | .raw sql bindings, h => by
    refine .tagged rfl (.record (by simp) (fun _ _ => rfl) fun n get hfields => ?_)
    simp only [List.forall_mem_cons] at hfields
    obtain ⟨hsql, hbindings, -⟩ := hfields
    have hsql := hsql.required nofun (readsAs_string sql)
    have hbindings := hbindings.items (Value.decodes r) rfl (fun _ _ => rfl) (Value.readsAs_all bindings h)
    simp only [hsql, hbindings, Option.bind_eq_bind, Option.bind_some, Option.pure_def]

theorem Filter.readsAs_all : (fs : List Filter) → Filter.AllStorable fs →
    List.Forall₂ (ReadsAs (Filter.decode r)) (Filter.encodes fs) fs
  | [], _ => .nil
  | f :: fs, h => .cons (Filter.readsAs f h.1) (Filter.readsAs_all fs h.2)

theorem Filter.readsAs_optional : (f : Option Filter) → Filter.OptionalStorable f →
    ∀ f', f = some f' → ReadsAs (Filter.decode r) f'.encode f'
  | none, _ => nofun
  | some f, h => fun f' hf' => by
    cases hf'
    exact Filter.readsAs f h

theorem Predicate.readsAs : (c : Predicate) → c.Storable → ReadsAs (Predicate.decode r) c.encode c
  | .compare column op value negated, h => by
    refine .tagged rfl (.record (by simp) (fun _ _ => rfl) fun n get hfields => ?_)
    simp only [List.forall_mem_cons] at hfields
    obtain ⟨hcolumn, hop, hvalue, hnegated, -⟩ := hfields
    have hcolumn := hcolumn.required nofun (readsAs_string column)
    have hop := hop.required nofun (readsAs_string op)
    have hvalue := hvalue.required nofun (Value.readsAs value h)
    have hnegated := hnegated.defaulted rfl (readsAs_bool false) (readsAs_bool negated)
    simp only [hcolumn, hop, hvalue, hnegated, Option.bind_eq_bind, Option.bind_some, Option.pure_def]
  | .isIn column values negated, h => by
    refine .tagged rfl (.record (by simp) (fun _ _ => rfl) fun n get hfields => ?_)
    simp only [List.forall_mem_cons] at hfields
    obtain ⟨hcolumn, hvalues, hnegated, -⟩ := hfields
    have hcolumn := hcolumn.required nofun (readsAs_string column)
    have hvalues := hvalues.required nofun (readsAs_values (Value.readsAs_all values h))
    have hnegated := hnegated.defaulted rfl (readsAs_bool false) (readsAs_bool negated)
    simp only [hcolumn, hvalues, hnegated, Option.bind_eq_bind, Option.bind_some, Option.pure_def]
  | .inSelect column q negated, h => by
    refine .tagged rfl (.record (by simp) (fun _ _ => rfl) fun n get hfields => ?_)
    simp only [List.forall_mem_cons] at hfields
    obtain ⟨hcolumn, hquery, hnegated, -⟩ := hfields
    have hcolumn := hcolumn.required nofun (readsAs_string column)
    have hquery := hquery.required nofun (Query.readsAs q h)
    have hnegated := hnegated.defaulted rfl (readsAs_bool false) (readsAs_bool negated)
    simp only [hcolumn, hquery, hnegated, Option.bind_eq_bind, Option.bind_some, Option.pure_def]
  | .isNull column negated, _ => by
    refine .tagged rfl (.record (by simp) (fun _ _ => rfl) fun n get hfields => ?_)
    simp only [List.forall_mem_cons] at hfields
    obtain ⟨hcolumn, hnegated, -⟩ := hfields
    have hcolumn := hcolumn.required nofun (readsAs_string column)
    have hnegated := hnegated.defaulted rfl (readsAs_bool false) (readsAs_bool negated)
    simp only [hcolumn, hnegated, Option.bind_eq_bind, Option.bind_some, Option.pure_def]
  | .datePart column part op value, h => by
    refine .tagged rfl (.record (by simp) (fun _ _ => rfl) fun n get hfields => ?_)
    simp only [List.forall_mem_cons] at hfields
    obtain ⟨hcolumn, hpart, hop, hvalue, -⟩ := hfields
    have hcolumn := hcolumn.required nofun (readsAs_string column)
    have hpart := hpart.required nofun part.readsAs
    have hop := hop.required nofun (readsAs_string op)
    have hvalue := hvalue.required nofun (Value.readsAs value h)
    simp only [hcolumn, hpart, hop, hvalue, Option.bind_eq_bind, Option.bind_some, Option.pure_def]
  | .rowExists q negated, h => by
    refine .tagged rfl (.record (by simp) (fun _ _ => rfl) fun n get hfields => ?_)
    simp only [List.forall_mem_cons] at hfields
    obtain ⟨hquery, hnegated, -⟩ := hfields
    have hquery := hquery.required nofun (Query.readsAs q h)
    have hnegated := hnegated.defaulted rfl (readsAs_bool false) (readsAs_bool negated)
    simp only [hquery, hnegated, Option.bind_eq_bind, Option.bind_some, Option.pure_def]

theorem Branch.readsAs_all : (bs : List Branch) → Branch.AllStorable bs →
    List.Forall₂ (ReadsAs (Branch.decode r)) (Branch.encodes bs) bs
  | [], _ => .nil
  | ⟨op, q⟩ :: bs, h => .cons (.pair op.readsAs (Query.readsAs q h.1) fun _ _ _ => rfl) (Branch.readsAs_all bs h.2)

theorem Assignment.readsAs_all : (as : List Assignment) → Assignment.AllStorable as →
    List.Forall₂ (ReadsAs (Assignment.decode r)) (Assignment.encodes as) as
  | [], _ => .nil
  | ⟨column, value⟩ :: as, h =>
    .cons (.pair (readsAs_string column) (Value.readsAs value h.1) fun _ _ _ => rfl) (Assignment.readsAs_all as h.2)

theorem Query.readsAs : (q : Query) → q.Storable → ReadsAs (Query.decode r) q.encode q
  | ⟨action, table, distinct, columns, joins, filter, groups, having, orders, limit, offset, aggregate, branches, lock,
      assignments, returning⟩, h => by
    obtain ⟨htable, hjoins, hfilter, hhaving, hlimit, hoffset, hbranches, hassignments⟩ := h
    refine .record (by simp) (fun _ _ => rfl) fun n get hfields => ?_
    simp only [List.forall_mem_cons, TableRef.encodeOptional_eq, Filter.encodeOptional_eq, orNull_map] at hfields
    obtain ⟨haction, htable', hdistinct, hcolumns, hjoins', hfilter', hgroups, hhaving', horders, hlimit', hoffset',
      haggregate, hbranches', hlock, hassignments', hreturning, -⟩ := hfields
    have haction := haction.defaulted rfl (Action.readsAs .select) action.readsAs
    have htable := htable'.optional rfl TableRef.encode_ne_null (TableRef.readsAs_optional table htable)
    have hdistinct := hdistinct.defaulted rfl (readsAs_bool false) (readsAs_bool distinct)
    have hcolumns := hcolumns.items (listWithin (Column.decode r)) rfl (fun _ _ => rfl) (Column.readsAs_all r columns)
    have hjoins := hjoins'.items (Join.decodes r) rfl (fun _ _ => rfl) (Join.readsAs_all joins hjoins)
    have hfilter := hfilter'.optional rfl Filter.encode_ne_null (Filter.readsAs_optional filter hfilter)
    have hgroups := hgroups.items (listWithin (Column.decode r)) rfl (fun _ _ => rfl) (Column.readsAs_all r groups)
    have hhaving := hhaving'.optional rfl Filter.encode_ne_null (Filter.readsAs_optional having hhaving)
    have horders := horders.items (listWithin (OrderBy.decode r)) rfl (fun _ _ => rfl) (OrderBy.readsAs_all r orders)
    have hlimit := hlimit'.optional rfl nofun fun n hn => readsAs_int (hlimit n hn)
    have hoffset := hoffset'.optional rfl nofun fun n hn => readsAs_int (hoffset n hn)
    have haggregate := haggregate.optional rfl nofun fun a _ => a.readsAs
    have hbranches := hbranches'.items (Branch.decodes r) rfl (fun _ _ => rfl) (Branch.readsAs_all branches hbranches)
    have hlock := hlock.optional rfl Lock.encode_ne_null fun l _ => l.readsAs
    have hassignments := hassignments'.items (Assignment.decodes r) rfl (fun _ _ => rfl)
      (Assignment.readsAs_all assignments hassignments)
    have hreturning := hreturning.items (listWithin fun _ => Json.string?) rfl (fun _ _ => rfl)
      (readsAs_strings returning)
    simp only [haction, htable, hdistinct, hcolumns, hjoins, hfilter, hgroups, hhaving, horders,
      hlimit, hoffset, haggregate, hbranches, hlock, hassignments, hreturning, Option.bind_eq_bind, Option.bind_some,
      Option.pure_def]

end

/-! ### The round trip -/

/-- **A description survives its JSON.**  The tree that is written for a query is read as the same query by every
reader that may go as deep as the tree, and so is every tree that is left of it when objects in it lack fields that
have their defaults. -/
theorem Query.decode_encode (q : Query) (h : q.Storable) :
    (∀ n, q.encode.depth ≤ n → Query.decode r n q.encode = some q) ∧
      ∀ j, Trimmed q.encode j → ∀ n, j.depth ≤ n → Query.decode r n j = some q :=
  ⟨fun n hn => q.readsAs r h q.encode (.same q.encode) n hn, q.readsAs r h⟩

/-- Different descriptions have different trees. -/
theorem Query.eq_of_encode_eq {q q' : Query} (h : q.Storable) (h' : q'.Storable) (hencode : q.encode = q'.encode) :
    q = q' := by
  have hread := q.readsAs ⟨false⟩ h
  rw [hencode] at hread
  exact hread.unique (q'.readsAs ⟨false⟩ h')

/-- A leap second in a long year. -/
def longYear : Timestamp where
  date := ⟨-12345, 2, 28, by decide⟩
  time := ⟨23, 59, 60, 250000000, by decide⟩

def nestedPage : Query where
  table := some (.subquery { table := some (.named "u"), limit := some 5 } none)
  filter := some (.predicate (.compare "u.at" ">=" (.timestamp longYear) false))

/-- The page without the fields that have their defaults. -/
def nestedPageTree : Json :=
  .object
    [⟨"table", .tagged "subquery" (.object
        [⟨"query", .object [⟨"table", .tagged "named" (.string "u")⟩, ⟨"limit", .int 5⟩]⟩])⟩,
      ⟨"filter", .tagged "predicate" (.tagged "compare" (.object
        [⟨"column", .string "u.at"⟩, ⟨"op", .string ">="⟩,
          ⟨"value", .tagged "timestamp" (.string "-12345-02-28T23:59:60.250")⟩]))⟩]

theorem decode_encode_nestedPage : nestedPage.Storable ∧
    (∀ r n, nestedPage.encode.depth ≤ n → Query.decode r n nestedPage.encode = some nestedPage) ∧
    Trimmed nestedPage.encode nestedPageTree ∧ Query.decode ⟨false⟩ 5 nestedPageTree = some nestedPage := by
  have hstorable : nestedPage.Storable := by
    simp [nestedPage, Query.Storable, TableRef.OptionalStorable, TableRef.Storable, Filter.OptionalStorable,
      Filter.Storable, Predicate.Storable, Value.Storable, Join.AllStorable, Branch.AllStorable,
      Assignment.AllStorable]
    decide
  have hshortest : nestedPage.encode.shortest = nestedPageTree := rfl
  have htrimmed : Trimmed nestedPage.encode nestedPageTree := hshortest ▸ trimmed_shortest nestedPage.encode
  exact ⟨hstorable, fun r => (Query.decode_encode r nestedPage hstorable).1, htrimmed,
    (Query.decode_encode ⟨false⟩ nestedPage hstorable).2 nestedPageTree htrimmed 5 (by decide)⟩

end SqlQuery
