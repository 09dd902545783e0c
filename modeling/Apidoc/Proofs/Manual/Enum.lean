import Apidoc.Manual.Enum
import Apidoc.Proofs.Model.Places

namespace Apidoc.Manual

variable (m : Manual)

def row? (e : Enum) (item : Text) : Option Text :=
  (m.pages.find? (m.page e.scope)).bind fun text => rowText? text (scopeName e.scope) e.name item

def prose? (e : Enum) : Option Text :=
  (m.pages.find? (m.page e.scope)).bind fun text =>
    enumText? m.layout text (scopeName e.scope) e.name

def remarkOr (docs : Option Text) (remark : Option Remark) : Option Remark :=
  (docs.map (⟨·, none⟩)).or remark

def itemDocumented (e : Enum) (item : Enumerator) : Enumerator :=
  { item with remark := remarkOr (m.row? e item.name) item.remark }

def itemDocumentedAt (j : Nat) (e : Enum) : Enum :=
  { e with items := e.items.modify j (m.itemDocumented e) }

def enumDocumented (e : Enum) : Enum :=
  { e with remark := remarkOr (m.prose? e) e.remark, items := e.items.map (m.itemDocumented e) }

theorem describeItem_eq (e : Enum) (item : Enumerator) :
    m.describeItem e item = (m.itemDocumented e item, (m.row? e item.name).isSome) := by
  unfold describeItem itemDocumented row?
  cases m.pages.find? (m.page e.scope) with
  | none => rfl
  | some text =>
    simp only [Option.bind_some]
    cases rowText? text (scopeName e.scope) e.name item.name <;> rfl

theorem describeEnum_eq (e : Enum) : ∃ events,
    m.describeEnum e = ⟨m.enumDocumented e, (m.prose? e).isSome, events⟩ := by
  have items : (fun item => (m.describeItem e item).1) = m.itemDocumented e :=
    funext fun item => congrArg Prod.fst (m.describeItem_eq e item)
  unfold describeEnum enumDocumented
  simp only [items]
  cases found : m.prose? e with
  | none =>
    unfold prose? at found
    exact ⟨[], by rw [found]; rfl⟩
  | some prose =>
    unfold prose? at found
    exact ⟨[.enumDocumented e.name (m.page e.scope)], by rw [found]; rfl⟩

variable {m}

theorem itemDocumentedAt_comm (j k : Nat) (e : Enum) :
    m.itemDocumentedAt j (m.itemDocumentedAt k e) =
      m.itemDocumentedAt k (m.itemDocumentedAt j e) := by
  have items : (e.items.modify k (m.itemDocumented e)).modify j (m.itemDocumented e) =
      (e.items.modify j (m.itemDocumented e)).modify k (m.itemDocumented e) :=
    modify_comm (fun _ => rfl) k j e.items
  exact congrArg (fun items => { e with items := items }) items

theorem enumDocumented_itemDocumentedAt (j : Nat) (e : Enum) :
    m.enumDocumented (m.itemDocumentedAt j e) = m.itemDocumentedAt j (m.enumDocumented e) := by
  have items : (e.items.modify j (m.itemDocumented e)).map (m.itemDocumented e) =
      (e.items.map (m.itemDocumented e)).modify j (m.itemDocumented e) :=
    map_modify (fun _ => rfl) j e.items
  exact congrArg
    (fun items => { e with remark := remarkOr (m.prose? e) e.remark, items := items }) items

def enumFound (m : Manual) (e : Enum) : Bool := (m.prose? e).isSome

theorem enumFound_enumDocumented (e : Enum) : m.enumFound (m.enumDocumented e) = m.enumFound e :=
  rfl

theorem enumFound_itemDocumentedAt (j : Nat) (e : Enum) :
    m.enumFound (m.itemDocumentedAt j e) = m.enumFound e := rfl

def itemFound (m : Manual) (j : Nat) (e : Enum) : Bool :=
  ((e.items[j]?).map fun item => (m.row? e item.name).isSome).getD false

theorem itemFound_itemDocumentedAt (j k : Nat) (e : Enum) :
    m.itemFound j (m.itemDocumentedAt k e) = m.itemFound j e := by
  let read (item : Enumerator) : Bool := (m.row? e item.name).isSome
  have keeps (item : Enumerator) : read (m.itemDocumented e item) = read item := rfl
  exact congrArg (·.getD false) (map_getElem?_modify keeps k j e.items)

theorem itemFound_enumDocumented (j : Nat) (e : Enum) :
    m.itemFound j (m.enumDocumented e) = m.itemFound j e := by
  have items : (m.enumDocumented e).items[j]? = (e.items[j]?).map (m.itemDocumented e) :=
    List.getElem?_map
  unfold itemFound
  rw [items, Option.map_map]
  rfl

end Apidoc.Manual
