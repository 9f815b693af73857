import Rio.Copa.Faults
import Rio.Copa.Batched
import Rio.Grid.Grid
import Rio.Grid.StorageRing
import Rio.Grid.Lines
import Rio.Grid.Scroll
import Rio.Crosswords.Modes
import Rio.Grid.Resize
import Rio.Grid.Template
import Rio.Crosswords.Handler
import Rio.Crosswords.Ops
import Rio.Grid.Sound
import Rio.Grid.ResizeSound
import Rio.Crosswords.Sound
import Rio.Crosswords.OpsSound
import Rio.Crosswords.Bounds
import Rio.Crosswords.Frame
import Rio.Crosswords.ScrollRegion
import Rio.Crosswords.Keyboard
import Rio.Crosswords.IdSpaces
import Rio.Performer.Total
import Rio.Kitty.Chunked
import Rio.Kitty.Numbers
import Rio.Kitty.Accounts
import Rio.Window.Exits
import Rio.Window.Replies
import Rio.Window.Labelled
import Rio.Selection.Follows
import Rio.Kitty.Anchors
import Rio.Crosswords.Erase
import Rio.Crosswords.Blanks
import Rio.Selection.Exact
import Rio.Crosswords.CopyText
import Rio.Crosswords.Selectors
import Rio.Crosswords.ViMotions
import Rio.Crosswords.Brackets
import Rio.Crosswords.ImageRows
import Rio.Crosswords.ExtrasApart
import Rio.Crosswords.Addressing
import Rio.Grid.ClearViewport
import Rio.Kitty.PlaceholderRows
import Rio.Kitty.VirtualPicture
import Rio.Hints.Chosen
import Rio.Hints.Pointer
import Rio.Layout.Dividers
import Rio.Performer.Writing
import Rio.Grid.Linear
import Rio.Copa.Decoded
import Rio.Kitty.Pixels
import Rio.Kitty.Eviction
import Rio.Kitty.Keyed
import Rio.Kitty.DeleteScope
import Rio.Sugarloaf.Faithful
import Rio.Sixel.Drawn
import Rio.Kitty.Resized
import Rio.GridEmit.Shaped
import Rio.Corcovado.Channel
import Rio.Teletypewriter.Spsc
import Rio.Teletypewriter.Pipes
import Rio.Performer.Sync
import Rio.Performer.Reading
import Rio.Rioterm.Scheduler
import Rio.Lib.Caches
import Rio.GridEmit.RunCache
import Rio.Crosswords.Damage
import Rio.Crosswords.DamageOps
import Rio.Rioterm.Panel
