/-! The names that all programs share: objectives, tags, and the holders of scores that belong to no
stand. -/

namespace RigPack
namespace Names

/-- The frame on which an instance waits. -/
def frame : String := "cmdent.frame"

/-- The id of an instance, on its root and on all its proxies. -/
def id : String := "cmdent.id"

/-- The animation that callers ask to follow, counted from one. -/
def next : String := "cmdent.next"

/-- What was asked for when the last tick ran. -/
def pending : String := "cmdent.pending"

/-- Carried by every proxy of a part. -/
def proxy : String := "cmdent.part"

/-- Carried by the proxies of the instance that is being posed. -/
def active : String := "cmdent.active"

/-- Carried by proxies that have not been posed since they were made. -/
def unposed : String := "cmdent.gc"

/-- Carried by proxies that the running spawn program has made. -/
def fresh : String := "cmdent.temp"

/-- The holder of the id that proxies are compared with. -/
def compared : String := "_"

/-- The holder of the number of instances so far. -/
def instances : String := "#instances"

def entityTag (entity : String) : String :=
  "cmdent." ++ entity

def partTag (entity part : String) : String :=
  "cmdent." ++ entity ++ "." ++ part

/-- The tags that no entity may have as its own. -/
def reserved : List String :=
  [proxy, active, unposed, fresh]

/-- The frame of an instance that plays nothing. -/
def dormantFrame : Int := -1

end Names
end RigPack
