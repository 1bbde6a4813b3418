/-
The items of the body of a table, one by one.  An item is read the same whatever items stand around
it, so a body with an item taken out, changed or put in is read as what the other items are, and
the item if there is one.
-/
import Schemata.Proofs.Sql.Framing
import Schemata.Proofs.Sql.TableBody

namespace Schemata
namespace Sql

/-! ## Parts that close -/

section

variable {breaks : Token → Bool} {u v x y : List Lexeme} {k : Lexeme} {e : Nat}

theorem depthOver_of_closed (hu : Closed (fun _ => false) u)
    (h : depthOver breaks 0 (u ++ v) = some e) :
    Closed breaks u ∧ depthOver breaks 0 v = some e := by
  obtain ⟨d, hd, hv⟩ := exists_depthOver_of_append h
  cases (depthOver_unbroken hd).symm.trans hu
  exact ⟨hd, hv⟩

/-- Nothing that closes has a lexeme in it that may not stand where all parentheses are closed. -/
theorem not_closed_of_nest (hu : Closed (fun _ => false) u) (hk : nest breaks 0 k.token = none) :
    depthOver breaks 0 (u ++ k :: v) ≠ some e := by
  intro h
  have hrest := (depthOver_of_closed hu h).2
  rw [depthOver_cons, hk] at hrest
  cases hrest

/-- What closes goes no further than the first lexeme that may not stand in it. -/
theorem exists_append_of_closed (h : u ++ x = v ++ k :: y) (hu : Closed breaks u)
    (hv : Closed (fun _ => false) v) (hk : nest breaks 0 k.token = none) :
    ∃ w, v = u ++ w ∧ x = w ++ k :: y := by
  rcases List.append_eq_append_iff.mp h with ⟨w, rfl, hx⟩ | ⟨w, rfl, hky⟩
  · exact ⟨w, rfl, hx⟩
  · cases w with
    | nil => exact ⟨[], by simp, hky.symm⟩
    | cons l w =>
      obtain ⟨rfl, -⟩ := List.cons.inj hky
      exact absurd hu (not_closed_of_nest hv hk)

end

/-! ## Items that are read -/

theorem Body.columns_append (a b : Body) : (a ++ b).columns = a.columns ++ b.columns := rfl

theorem Body.constraints_append (a b : Body) :
    (a ++ b).constraints = a.constraints ++ b.constraints := rfl

theorem Body.append_assoc (a b c : Body) : a ++ b ++ c = a ++ (b ++ c) := by
  show Body.mk (a.columns ++ b.columns ++ c.columns) (a.constraints ++ b.constraints ++ _) = _
  rw [List.append_assoc, List.append_assoc]
  rfl

/-- The names of the columns of a body. -/
def Body.names (b : Body) : List String := b.columns.map (·.name)

theorem Body.names_append (a b : Body) : (a ++ b).names = a.names ++ b.names :=
  List.map_append

/-- The lexemes are items with commas between them, which are read as `b`.  No column has one of the
names `taken` or that of an earlier column. -/
inductive ReadsItems (dialect : Dialect) : List String → List Lexeme → Body → Prop
  | last {taken : List String} {item : List Lexeme} {b : Body} (hitem : ReadsAs dialect item b)
      (hclosed : Closed isComma item) (hnew : ∀ c ∈ b.columns, c.name ∉ taken) :
      ReadsItems dialect taken item b
  | cons {taken : List String} {item rest : List Lexeme} {l : Lexeme} {b more : Body}
      (hitem : ReadsAs dialect item b) (hclosed : Closed isComma item)
      (hnew : ∀ c ∈ b.columns, c.name ∉ taken) (hl : l.token = .comma)
      (hmore : ReadsItems dialect (taken ++ b.names) rest more) :
      ReadsItems dialect taken (item ++ l :: rest) (b ++ more)

theorem not_mem_of_repeatedColumn? {taken : List String} {columns : List ColumnDef}
    (h : repeatedColumn? taken columns = none) : ∀ c ∈ columns, c.name ∉ taken := by
  simpa [repeatedColumn?] using h

section

variable {dialect : Dialect} {taken : List String} {inner u v : List Lexeme} {l close : Lexeme}
  {b b' : Body}

theorem readItems_of_readsItems (h : ReadsItems dialect taken inner b)
    (hclose : close.token = .rightParen) (rest : List Lexeme) :
    readItems dialect taken (inner ++ close :: rest) = .ok (b, rest) := by
  induction h with
  | last hitem _ hnew =>
    have hends : endsItem (nextToken (close :: rest)) = true := by
      rw [show nextToken (close :: rest) = close.token from rfl, hclose]
      rfl
    refine readItems_last (hitem _ hends) hnew ?_
    rw [readSeparator, if_neg (by simp [hclose]), if_pos hclose]
  | @cons taken item more l b b' hitem _ hnew hl _ ih =>
    rw [List.append_assoc, List.cons_append]
    have hends : endsItem (nextToken (l :: (more ++ close :: rest))) = true := by
      rw [show nextToken (l :: (more ++ close :: rest)) = l.token from rfl, hl]
      rfl
    exact readItems_more (hitem _ hends) hnew (by rw [readSeparator, if_pos hl]) ih

/-- The items up to the parenthesis that closes the body are read one by one. -/
theorem exists_readsItems {ts rest : List Lexeme}
    (h : readItems dialect taken ts = .ok (b, rest)) (hseen : MarksSeen ts) :
    ∃ inner close, ts = inner ++ close :: rest ∧ close.token = .rightParen ∧
      Closed (fun _ => false) inner ∧ ReadsItems dialect taken inner b := by
  fun_induction readItems dialect taken ts generalizing b with
  | case1 => cases h
  | case2 => cases h
  | case3 => cases h
  | case4 taken ts body' mid hitem hnew last hseparator =>
    cases h
    obtain ⟨item, rfl, hdepth⟩ := passes_readItem hitem
    obtain ⟨close, rfl, hclose⟩ := ok_readSeparator hseparator
    have hclosed : Closed isComma item := hdepth hseen.breaksSeen
    have hends : endsItem (nextToken (close :: rest)) = true := by
      rw [show nextToken (close :: rest) = close.token from rfl, hclose]
      rfl
    exact ⟨item, close, rfl, hclose, depthOver_unbroken hclosed,
      .last (readsAs_of_readItem hitem hclosed hends (by simp)) hclosed
        (not_mem_of_repeatedColumn? hnew)⟩
  | case5 taken ts body' mid hitem hnew last hseparator ih =>
    obtain ⟨⟨more, last'⟩, hmore, h⟩ := ok_of_bind h
    cases h
    obtain ⟨item, rfl, hdepth⟩ := passes_readItem hitem
    obtain ⟨comma, rfl, hcomma⟩ := ok_readSeparator hseparator
    have hclosed : Closed isComma item := hdepth hseen.breaksSeen
    have hends : endsItem (nextToken (comma :: last)) = true := by
      rw [show nextToken (comma :: last) = comma.token from rfl, hcomma]
      rfl
    have hseen' : MarksSeen last :=
      hseen.of_suffix ((List.suffix_cons comma last).trans (List.suffix_append item _))
    obtain ⟨inner, close, rfl, hclose, hinner, hreads⟩ := ih hmore hseen'
    refine ⟨item ++ comma :: inner, close, by rw [List.append_assoc, List.cons_append], hclose, ?_,
      .cons (readsAs_of_readItem hitem hclosed hends (by simp)) hclosed
        (not_mem_of_repeatedColumn? hnew) hcomma hreads⟩
    refine Closed.append (depthOver_unbroken hclosed) ?_
    exact depthOver_cons_of_nest (by rw [hcomma]; rfl) hinner

namespace ReadsItems

theorem append (h : ReadsItems dialect taken u b) (hl : l.token = .comma)
    (h' : ReadsItems dialect (taken ++ b.names) v b') :
    ReadsItems dialect taken (u ++ l :: v) (b ++ b') := by
  induction h with
  | last hitem hclosed hnew => exact .cons hitem hclosed hnew hl h'
  | @cons taken item rest k b more hitem hclosed hnew hk _ ih =>
    rw [Body.names_append, ← List.append_assoc] at h'
    rw [List.append_assoc, List.cons_append, Body.append_assoc]
    exact .cons hitem hclosed hnew hk (ih h')

/-- Items are divided at each comma outside of groups. -/
theorem split (h : ReadsItems dialect taken (u ++ l :: v) b) (hu : Closed (fun _ => false) u)
    (hl : l.token = .comma) :
    ∃ b₁ b₂, b = b₁ ++ b₂ ∧ ReadsItems dialect taken u b₁ ∧
      ReadsItems dialect (taken ++ b₁.names) v b₂ := by
  have hnest : nest isComma 0 l.token = none := by rw [hl]; rfl
  generalize hitems : u ++ l :: v = items at h
  induction h generalizing u with
  | last _ hclosed _ =>
    rw [← hitems] at hclosed
    exact absurd hclosed (not_closed_of_nest hu hnest)
  | @cons taken item rest k b more hitem hclosed hnew hk hmore ih =>
    obtain ⟨w, rfl, hrest⟩ := exists_append_of_closed hitems.symm hclosed hu hnest
    cases w with
    | nil =>
      obtain ⟨rfl, rfl⟩ := List.cons.inj hrest
      exact ⟨b, more, rfl, by rw [List.append_nil]; exact .last hitem hclosed hnew, hmore⟩
    | cons k' w =>
      obtain ⟨rfl, rfl⟩ := List.cons.inj hrest
      have hw : Closed (fun _ => false) w := by
        have hkw := (depthOver_of_closed (depthOver_unbroken hclosed) hu).2
        rwa [depthOver_cons, hk] at hkw
      obtain ⟨b₁, b₂, rfl, hb₁, hb₂⟩ := ih hw rfl
      refine ⟨b ++ b₁, b₂, (Body.append_assoc _ _ _).symm, .cons hitem hclosed hnew hk hb₁, ?_⟩
      rwa [Body.names_append, ← List.append_assoc]

/-- Without a comma outside of groups there is one item. -/
theorem single (h : ReadsItems dialect taken u b) (hu : Closed isComma u) :
    ReadsAs dialect u b ∧ ∀ c ∈ b.columns, c.name ∉ taken := by
  cases h with
  | last hitem _ hnew => exact ⟨hitem, hnew⟩
  | cons _ hclosed _ hl _ =>
    exact absurd hu (not_closed_of_nest (depthOver_unbroken hclosed) (by rw [hl]; rfl))

end ReadsItems

end

/-! ## Around an item -/

/-- The lexemes are none, or they end with the separator outside of parentheses. -/
def AtStart (separator : Token) (before : List Lexeme) : Prop :=
  before = [] ∨ ∃ init l, before = init ++ [l] ∧ l.token = separator ∧ Closed (fun _ => false) init

/-- Items that are read as `b`, with a comma behind the last of them, or no item. -/
inductive ReadsBefore (dialect : Dialect) (taken : List String) : List Lexeme → Body → Prop
  | nil : ReadsBefore dialect taken [] .empty
  | items {items : List Lexeme} {l : Lexeme} {b : Body} (h : ReadsItems dialect taken items b)
      (hl : l.token = .comma) : ReadsBefore dialect taken (items ++ [l]) b

/-- Items that are read as `b`, with a comma in front of the first of them, or no item. -/
inductive ReadsAfter (dialect : Dialect) (taken : List String) : List Lexeme → Body → Prop
  | nil : ReadsAfter dialect taken [] .empty
  | items {items : List Lexeme} {l : Lexeme} {b : Body} (hl : l.token = .comma)
      (h : ReadsItems dialect taken items b) : ReadsAfter dialect taken (l :: items) b

theorem Body.append_empty (b : Body) : b ++ Body.empty = b := by
  show Body.mk (b.columns ++ []) (b.constraints ++ []) = b
  rw [List.append_nil, List.append_nil]

section

variable {dialect : Dialect} {taken : List String} {before item after : List Lexeme}
  {b b₁ b₂ c : Body}

theorem ReadsItems.append_after (h : ReadsItems dialect taken item b)
    (hafter : ReadsAfter dialect (taken ++ b.names) after b₂) :
    ReadsItems dialect taken (item ++ after) (b ++ b₂) := by
  cases hafter with
  | nil => rwa [List.append_nil, Body.append_empty]
  | items hl hmore => exact h.append hl hmore

theorem ReadsBefore.append (h : ReadsBefore dialect taken before b₁)
    (hitems : ReadsItems dialect (taken ++ b₁.names) item b) :
    ReadsItems dialect taken (before ++ item) (b₁ ++ b) := by
  cases h with
  | nil => rwa [show taken ++ Body.empty.names = taken from List.append_nil _] at hitems
  | items h hl =>
    rw [List.append_assoc]
    exact h.append hl hitems

/-- An item is read apart from those before it and those after it. -/
theorem ReadsItems.exists_item (h : ReadsItems dialect taken (before ++ (item ++ after)) b)
    (hbefore : AtStart .comma before) (hitem : Closed isComma item)
    (hafter : ∀ l ∈ after.head?, l.token = .comma) :
    ∃ b₁ c b₂, b = b₁ ++ (c ++ b₂) ∧ ReadsBefore dialect taken before b₁ ∧
      ReadsAs dialect item c ∧ (∀ d ∈ c.columns, d.name ∉ taken ++ b₁.names) ∧
      ReadsAfter dialect (taken ++ b₁.names ++ c.names) after b₂ := by
  have hfirst : ∃ b₁ more, b = b₁ ++ more ∧ ReadsBefore dialect taken before b₁ ∧
      ReadsItems dialect (taken ++ b₁.names) (item ++ after) more := by
    rcases hbefore with rfl | ⟨init, l, rfl, hl, hinit⟩
    · exact ⟨.empty, b, rfl, .nil, by rwa [show taken ++ Body.empty.names = taken from
        List.append_nil _]⟩
    · rw [List.append_assoc] at h
      obtain ⟨b₁, more, rfl, hb₁, hmore⟩ := h.split hinit hl
      exact ⟨b₁, more, rfl, .items hb₁ hl, hmore⟩
  obtain ⟨b₁, more, rfl, hb₁, hmore⟩ := hfirst
  cases after with
  | nil =>
    rw [List.append_nil] at hmore
    obtain ⟨hreads, hnew⟩ := hmore.single hitem
    exact ⟨b₁, more, .empty, by rw [Body.append_empty], hb₁, hreads, hnew, .nil⟩
  | cons l after =>
    have hl : l.token = .comma := hafter l rfl
    obtain ⟨c, b₂, rfl, hc, hb₂⟩ := hmore.split (depthOver_unbroken hitem) hl
    obtain ⟨hreads, hnew⟩ := hc.single hitem
    exact ⟨b₁, c, b₂, rfl, hb₁, hreads, hnew, .items hl hb₂⟩

end

/-! ## Tables -/

section

variable {ts rest : List Lexeme}

/-- The name of a table, after the word `CREATE`. -/
def readTableName (ts : List Lexeme) : Except Fault (String × List Lexeme) := do
  let ts ← expect (.keyword .table) "TABLE after CREATE" (ts.dropWhile (isTableModifier ·.token))
  let ts ← skipIfNotExists ts
  readQualifiedName "table name" ts

/-- The name of a table and the lexemes of its body, after the word `CREATE`. -/
def readHead (ts : List Lexeme) : Except Fault (String × List Lexeme) := do
  let (name, ts) ← readTableName ts
  let ts ← expect .leftParen "`(` to open the table body" ts
  return (name, ts)

theorem readCreate_eq (dialect : Dialect) (ts : List Lexeme) :
    readCreate dialect ts = readHead ts >>= fun a =>
      if nextToken a.2 = .rightParen then .ok (a.1, .empty)
      else readItems dialect [] a.2 >>= fun b => .ok (a.1, b.1) := by
  simp only [readCreate, readHead, readTableName, bind_assoc]
  rfl

theorem not_isTableModifier_of_isHalt (t : Token) (h : isHalt t = true) :
    ¬isTableModifier t = true := by
  cases t <;> first | exact Bool.false_ne_true | cases h

theorem frames_skipIfNotExists (h : skipIfNotExists ts = .ok rest) :
    Frames .item skipIfNotExists id ts rest := by
  unfold skipIfNotExists at h ⊢
  have hread : nextToken ts = .keyword .ifWord → Frames .item (fun ts =>
      expect (.keyword .not) "NOT" ts >>= expect (.keyword .existsWord) "EXISTS") id ts.tail
        rest := by
    intro hts
    rw [if_pos hts] at h
    obtain ⟨mid, hnot, hexists⟩ := ok_of_bind h
    exact (frames_expect hnot).bind (frames_expect hexists)
  refine .ite_tail (p := (· = .keyword .ifWord)) (ne_of_isHalt rfl) hread fun hts => ?_
  rw [if_neg hts] at h
  cases h
  exact .refl fun _ _ => rfl

theorem frames_readTableName {name : String} (h : readTableName ts = .ok (name, rest)) :
    Frames .item readTableName (name, ·) ts rest := by
  obtain ⟨ts₁, htable, h⟩ := ok_of_bind h
  obtain ⟨ts₂, hexists, hname⟩ := ok_of_bind h
  have hnames : Frames .item (fun ts => skipIfNotExists ts >>= readQualifiedName "table name")
      (name, ·) ts₁ rest :=
    (frames_skipIfNotExists hexists).bind (frames_readQualifiedName hname)
  have hwords : Frames .item (fun ts => expect (.keyword .table) "TABLE after CREATE" ts >>= fun ts =>
      skipIfNotExists ts >>= readQualifiedName "table name") (name, ·)
      (ts.dropWhile (isTableModifier ·.token)) rest := (frames_expect htable).bind hnames
  exact (frames_dropWhile not_isTableModifier_of_isHalt ts).skip hwords

/-- The head of a table ends with the parenthesis that opens the body, whatever is in the body. -/
theorem readHead_append {head : List Lexeme} {name : String}
    (h : readHead (head ++ rest) = .ok (name, rest)) :
    (∃ plain opening, head = plain ++ [opening] ∧ opening.token = .leftParen ∧
      ∀ l ∈ plain, isDivider l.token = false) ∧
      ∀ rest', readHead (head ++ rest') = .ok (name, rest') := by
  obtain ⟨⟨name', mid⟩, hname, h⟩ := ok_of_bind h
  obtain ⟨mid', hopen, h⟩ := ok_of_bind h
  cases h
  obtain ⟨opening, rfl, hopening⟩ := ok_expect hopen
  obtain ⟨plain, happend, hread⟩ := frames_readTableName hname
  have hplain : Plain (head ++ rest) (opening :: rest) := by
    obtain ⟨ts₁, htable, hname⟩ := ok_of_bind hname
    obtain ⟨ts₂, hexists, hname⟩ := ok_of_bind hname
    exact plain_createHead htable hexists hname
  obtain ⟨used, hused, hplain⟩ := hplain
  obtain rfl : used = plain := List.append_cancel_right (hused.symm.trans happend)
  rw [List.append_cons] at happend
  obtain rfl : head = used ++ [opening] := List.append_cancel_right happend
  refine ⟨⟨used, opening, rfl, hopening, hplain⟩, fun rest' => ?_⟩
  have hfits : Fits .item (opening :: rest) (opening :: rest') :=
    ⟨fun hnil => absurd hnil (List.cons_ne_nil _ _), .inl rfl⟩
  rw [List.append_assoc, List.singleton_append, readHead, hread _ hfits]
  show expect _ _ (opening :: rest') >>= _ = _
  rw [expect, if_pos hopening]
  rfl

end

theorem ReadsAs.ne_nil {dialect : Dialect} {item : List Lexeme} {b : Body}
    (h : ReadsAs dialect item b) : item ≠ [] := by
  rintro rfl
  exact absurd (length_readItem (h [] rfl)) (Nat.lt_irrefl _)

section

variable {dialect : Dialect} {taken : List String} {inner : List Lexeme} {b : Body}

theorem ReadsItems.ne_nil (h : ReadsItems dialect taken inner b) : inner ≠ [] := by
  cases h with
  | last hitem _ _ => exact hitem.ne_nil
  | cons _ _ _ _ _ => simp

theorem ReadsItems.closed (h : ReadsItems dialect taken inner b) :
    Closed (fun _ => false) inner := by
  induction h with
  | last _ hclosed _ => exact depthOver_unbroken hclosed
  | cons _ hclosed _ hl _ ih =>
    exact Closed.append (depthOver_unbroken hclosed)
      (depthOver_cons_of_nest (by rw [hl]; rfl) ih)

/-- What closes does not begin with a parenthesis that closes another one. -/
theorem nextToken_ne_of_closed {breaks : Token → Bool} {ls : List Lexeme} (h : Closed breaks ls)
    (hne : ls ≠ []) (rest : List Lexeme) : nextToken (ls ++ rest) ≠ .rightParen := by
  cases ls with
  | nil => exact absurd rfl hne
  | cons l ls =>
    intro hl
    have hl : l.token = .rightParen := hl
    rw [Closed, depthOver_cons, hl] at h
    cases h

/-- The lexemes of a body that is read as `b`. -/
def ReadsBody (dialect : Dialect) (inner : List Lexeme) (b : Body) : Prop :=
  inner = [] ∧ b = .empty ∨ ReadsItems dialect [] inner b

theorem ReadsBody.closed (h : ReadsBody dialect inner b) : Closed (fun _ => false) inner := by
  rcases h with ⟨rfl, -⟩ | hitems
  · rfl
  · exact hitems.closed

variable {head : List Lexeme} {table : String}
  (hhead : ∀ rest, readHead (head ++ rest) = .ok (table, rest))

include hhead

theorem readCreate_of_readsBody (h : ReadsBody dialect inner b) {close : Lexeme}
    (hclose : close.token = .rightParen) (rest : List Lexeme) :
    readCreate dialect (head ++ (inner ++ close :: rest)) = .ok (table, b) := by
  rw [readCreate_eq, hhead]
  rcases h with ⟨rfl, rfl⟩ | hitems
  · exact if_pos hclose
  · show (if nextToken (inner ++ close :: rest) = _ then _ else _) = _
    rw [if_neg (nextToken_ne_of_closed hitems.closed hitems.ne_nil _),
      readItems_of_readsItems hitems hclose]
    rfl

/-- A body that is not empty is read item by item. -/
theorem exists_readsItems_of_readCreate {ts : List Lexeme} {a : String × Body}
    (h : readCreate dialect (head ++ ts) = .ok a) (hne : nextToken ts ≠ .rightParen)
    (hseen : MarksSeen ts) :
    ∃ inner close rest, ts = inner ++ close :: rest ∧ close.token = .rightParen ∧
      Closed (fun _ => false) inner ∧ ReadsItems dialect [] inner a.2 ∧ a.1 = table := by
  rw [readCreate_eq, hhead] at h
  have h : (if nextToken ts = .rightParen then _ else _) = _ := h
  rw [if_neg hne] at h
  obtain ⟨⟨b, rest⟩, hitems, h⟩ := ok_of_bind h
  cases h
  obtain ⟨inner, close, hts, hclose, hclosed, hreads⟩ := exists_readsItems hitems hseen
  exact ⟨inner, close, rest, hts, hclose, hclosed, hreads, rfl⟩

end

end Sql
end Schemata
