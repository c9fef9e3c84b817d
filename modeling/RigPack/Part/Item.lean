/-! Items that proxies wear, written `namespace:name`. -/

namespace RigPack

/-- The namespace of names that have none of their own. -/
def defaultItemSpace : String := "minecraft"

/-- The namespace and the name of an item. The first colon parts them. -/
def splitItem (item : String) : String × String :=
  match item.toList.span (· != ':') with
  | (_, []) => (defaultItemSpace, item)
  | (space, _ :: name) => (String.ofList space, String.ofList name)

end RigPack
