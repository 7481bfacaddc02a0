import DaemonBridge.Kind

/-!
# Wire names

Every notification kind and every command has a wire name of its own: reading a wire name back
gives the kind or command it names, so two kinds, or two commands, with one wire name are the
same.
-/

namespace DaemonBridge

theorem EventKind.ofWireName?_wireName (k : EventKind) :
    EventKind.ofWireName? k.wireName = some k := by
  cases k <;> decide

theorem EventKind.wireName_injective : Function.Injective EventKind.wireName := fun a b h => by
  have ha := EventKind.ofWireName?_wireName a
  rw [h, EventKind.ofWireName?_wireName] at ha
  exact (Option.some.inj ha).symm

theorem CommandKind.ofWireName?_wireName (k : CommandKind) :
    CommandKind.ofWireName? k.wireName = some k := by
  cases k <;> decide

theorem CommandKind.wireName_injective : Function.Injective CommandKind.wireName := fun a b h => by
  have ha := CommandKind.ofWireName?_wireName a
  rw [h, CommandKind.ofWireName?_wireName] at ha
  exact (Option.some.inj ha).symm

end DaemonBridge
