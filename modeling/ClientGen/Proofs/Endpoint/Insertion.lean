import ClientGen.Proofs.Table
import ClientGen.Proofs.Text.Name
import ClientGen.Endpoint.Grouping

namespace ClientGen

/-- The name for a new method beside others of these names: the one asked for where it is free, or
else that with the least number behind it that makes it so. To find the number, as many
candidates as there are names are enough. -/
inductive Groups.Chooses (names : List String) (method : String) : String → Prop
  | asked (h : method ∉ names) : Chooses names method method
  | numbered (h : method ∈ names) {n : Nat} (hn : IsLeast (Text.freeNumbers names method) n)
    (htries : n - 1 ≤ names.length) : Chooses names method (Text.suffixed method n)

/-- The second groups are the first ones with the entry behind all others of the controller, which
stands behind all other controllers where it is new. -/
inductive Groups.Appends (controller : String) (entry : String × Endpoint) : Groups → Groups → Prop
  | newController {g : Groups} (h : controller ∉ g.controllers.keys) :
    Appends controller entry g ⟨g.controllers ++ [(controller, [entry])]⟩
  | oldController {before after : Table (Table Endpoint)} {methods : Table Endpoint}
    (h : controller ∉ before.keys) :
    Appends controller entry ⟨before ++ (controller, methods) :: after⟩
      ⟨before ++ (controller, methods ++ [entry]) :: after⟩

/-- No controller stands twice, none is empty, and none has two methods of one name. -/
structure Groups.WellFormed (g : Groups) : Prop where
  controllers : g.controllers.keys.Nodup
  methods : ∀ p ∈ g.controllers, p.2 ≠ [] ∧ p.2.keys.Nodup

inductive Groups.Reachable : Groups → Prop
  | empty : Reachable {}
  | insert {g : Groups} (h : Reachable g) (controller method : String) (e : Endpoint) :
    Reachable (g.insert controller method e)

namespace Groups

theorem chooses_storedName (g : Groups) (controller method : String) :
    Chooses (g.methods controller).keys method (g.storedName controller method) := by
  unfold storedName
  by_cases h : method ∈ (g.methods controller).keys
  · obtain ⟨n, hleast, htries, hname⟩ := Text.freeName_of_mem h
    rw [hname]
    exact .numbered h hleast htries
  · rw [Text.freeName_of_not_mem h]
    exact .asked h

theorem storedName_not_mem (g : Groups) (controller method : String) :
    g.storedName controller method ∉ (g.methods controller).keys := Text.freeName_not_mem _ _

theorem appends_insert (g : Groups) (controller method : String) (e : Endpoint) :
    g.Appends controller (g.storedName controller method, e) (g.insert controller method e) := by
  obtain ⟨controllers⟩ := g
  unfold insert
  rw [Table.put_of_not_mem (storedName_not_mem _ controller method)]
  by_cases hc : controller ∈ controllers.keys
  · obtain ⟨before, methods, after, rfl, hbefore⟩ := Table.exists_append_cons hc
    rw [Table.put_append_cons hbefore, Groups.methods, Table.get?_append_cons hbefore]
    exact .oldController hbefore
  · rw [Table.put_of_not_mem hc, Groups.methods, Table.get?_eq_none_iff.2 hc]
    exact .newController hc

namespace Appends

variable {controller : String} {entry : String × Endpoint} {g h : Groups}

theorem methodCount_eq (ha : Appends controller entry g h) :
    h.methodCount = g.methodCount + 1 := by
  cases ha with
  | newController => simp [methodCount]
  | oldController => simp [methodCount, Nat.add_assoc, Nat.add_left_comm]

theorem wellFormed (ha : Appends controller entry g h) (hg : g.WellFormed)
    (hname : entry.1 ∉ (g.methods controller).keys) : h.WellFormed := by
  obtain ⟨hkeys, hmethods⟩ := hg
  cases ha with
  | newController hc =>
    constructor
    case controllers =>
      rw [← Table.put_of_not_mem hc]
      exact Table.nodup_keys_put hkeys _ _
    case methods =>
      intro p hp
      rcases List.mem_append.1 hp with hp | hp
      · exact hmethods p hp
      · rw [List.mem_singleton.1 hp]
        exact ⟨List.cons_ne_nil _ _, List.nodup_singleton _⟩
  | @oldController before after methods hbefore =>
    rw [Groups.methods, Table.get?_append_cons hbefore, Option.getD_some] at hname
    constructor
    case controllers => simpa [Table.keys] using hkeys
    case methods =>
      intro p hp
      rcases List.mem_append.1 hp with hp | hp
      · exact hmethods p (List.mem_append_left _ hp)
      rcases List.mem_cons.1 hp with rfl | hp
      · have hold := hmethods (controller, methods) (List.mem_append_right _ List.mem_cons_self)
        refine ⟨List.append_ne_nil_of_right_ne_nil _ (List.cons_ne_nil _ _), ?_⟩
        rw [← Table.put_of_not_mem hname]
        exact Table.nodup_keys_put hold.2 _ _
      · exact hmethods p (List.mem_append_right _ (List.mem_cons_of_mem _ hp))

end Appends

theorem Reachable.wellFormed {g : Groups} (h : g.Reachable) : g.WellFormed := by
  induction h with
  | empty => exact ⟨List.nodup_nil, nofun⟩
  | insert _ controller method e ih =>
    exact (appends_insert _ controller method e).wellFormed ih (storedName_not_mem _ _ _)

/-- Whatever was put in before, an insertion takes the first free name, which is an identifier if
the one asked for is, adds the entry under it behind the others of its controller, and leaves all
else as it was; so there is one method more, and no controller without any. -/
theorem insert_appends {g : Groups} (h : g.Reachable) (controller method : String) (e : Endpoint) :
    Chooses (g.methods controller).keys method (g.storedName controller method) ∧
      (Text.isIdentifier method = true →
        Text.isIdentifier (g.storedName controller method) = true) ∧
      g.Appends controller (g.storedName controller method, e) (g.insert controller method e) ∧
      (g.insert controller method e).methodCount = g.methodCount + 1 ∧
      g.WellFormed ∧ (g.insert controller method e).WellFormed := by
  have happends := appends_insert g controller method e
  exact ⟨chooses_storedName g controller method, fun hid => Text.isIdentifier_freeName hid _,
    happends, happends.methodCount_eq, h.wellFormed, (h.insert controller method e).wellFormed⟩

def ordersEndpoint : Endpoint where
  verb := .get
  path := "/orders"
  operation := {}

def numberedGroups : Groups :=
  (((({} : Groups).insert "orders" "list_2" ordersEndpoint).insert "users" "list"
    ordersEndpoint).insert "orders" "list" ordersEndpoint).insert "orders" "list_2" ordersEndpoint

theorem insert_appends_numberedGroups :
    numberedGroups.Reachable ∧
      Chooses ["list_2", "list", "list_2_2"] "list" "list_3" ∧
      Text.isIdentifier "list_3" = true ∧
      numberedGroups.Appends "orders" ("list_3", ordersEndpoint)
        (numberedGroups.insert "orders" "list" ordersEndpoint) ∧
      (numberedGroups.insert "orders" "list" ordersEndpoint).methodCount = 5 := by
  have hreachable : numberedGroups.Reachable :=
    (((Reachable.empty.insert _ _ _).insert _ _ _).insert _ _ _).insert _ _ _
  have hnames : (numberedGroups.methods "orders").keys = ["list_2", "list", "list_2_2"] := by
    decide +kernel
  have hname : numberedGroups.storedName "orders" "list" = "list_3" := by decide +kernel
  have hcount : numberedGroups.methodCount = 4 := by decide +kernel
  obtain ⟨hchooses, hidentifier, happends, hmore, _, _⟩ :=
    insert_appends hreachable "orders" "list" ordersEndpoint
  rw [hnames, hname] at hchooses
  rw [hname] at hidentifier happends
  rw [hcount] at hmore
  exact ⟨hreachable, hchooses, hidentifier (by decide), happends, hmore⟩

end Groups

end ClientGen
