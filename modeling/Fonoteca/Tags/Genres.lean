import Fonoteca.Text.Numeral

/-!
# Genres by number

A tag may give the genre by a number of a list that grew with the players.

* `Tags.genreNames` is that list.  It names a few genres otherwise than the list of the library
  does, and is more than twice as long.
* `Tags.genreOf` is the genre that one entry of a tag gives, by number or by name.
-/

set_option autoImplicit false

namespace Fonoteca
namespace Tags

/-- The names of the genres from number 0 on. -/
def genreNames : List String :=
  ["Blues", "Classic rock", "Country", "Dance", "Disco", "Funk", "Grunge", "Hip-Hop", "Jazz",
   "Metal", "New Age", "Oldies", "Other", "Pop", "R&B", "Rap", "Reggae", "Rock", "Techno",
   "Industrial", "Alternative", "Ska", "Death metal", "Pranks", "Soundtrack", "Euro-Techno",
   "Ambient", "Trip-Hop", "Vocal", "Jazz & Funk", "Fusion", "Trance", "Classical", "Instrumental",
   "Acid", "House", "Game", "Sound clip", "Gospel", "Noise", "Alternative Rock", "Bass", "Soul",
   "Punk", "Space", "Meditative", "Instrumental Pop", "Instrumental Rock", "Ethnic", "Gothic",
   "Darkwave", "Techno-Industrial", "Electronic", "Pop-Folk", "Eurodance", "Dream",
   "Southern Rock", "Comedy", "Cult", "Gangsta", "Top 40", "Christian Rap", "Pop/Funk", "Jungle",
   "Native US", "Cabaret", "New Wave", "Psychedelic", "Rave", "Show tunes", "Trailer", "Lo-Fi",
   "Tribal", "Acid Punk", "Acid Jazz", "Polka", "Retro", "Musical", "Rock ’n’ Roll", "Hard Rock",
   "Folk", "Folk-Rock", "National Folk", "Swing", "Fast Fusion", "Bebop", "Latin", "Revival",
   "Celtic", "Bluegrass", "Avantgarde", "Gothic Rock", "Progressive Rock", "Psychedelic Rock",
   "Symphonic Rock", "Slow rock", "Big Band", "Chorus", "Easy Listening", "Acoustic", "Humour",
   "Speech", "Chanson", "Opera", "Chamber music", "Sonata", "Symphony", "Booty bass", "Primus",
   "Porn groove", "Satire", "Slow jam", "Club", "Tango", "Samba", "Folklore", "Ballad",
   "Power Ballad", "Rhythmic Soul", "Freestyle", "Duet", "Punk Rock", "Drum Solo", "A cappella",
   "Euro-House", "Dance Hall", "Goa music", "Drum & Bass", "Club-House", "Hardcore Techno",
   "Terror", "Indie", "BritPop", "Negerpunk", "Polsk Punk", "Beat", "Christian Gangsta Rap",
   "Heavy Metal", "Black Metal", "Crossover", "Contemporary Christian", "Christian rock",
   "Merengue", "Salsa", "Thrash Metal", "Anime", "Jpop", "Synthpop", "Abstract", "Art Rock",
   "Baroque", "Bhangra", "Big beat", "Breakbeat", "Chillout", "Downtempo", "Dub", "EBM",
   "Eclectic", "Electro", "Electroclash", "Emo", "Experimental", "Garage", "Global", "IDM",
   "Illbient", "Industro-Goth", "Jam Band", "Krautrock", "Leftfield", "Lounge", "Math Rock",
   "New Romantic", "Nu-Breakz", "Post-Punk", "Post-Rock", "Psytrance", "Shoegaze", "Space Rock",
   "Trop Rock", "World Music", "Neoclassical", "Audiobook", "Audio theatre",
   "Neue Deutsche Welle", "Podcast", "Indie-Rock", "G-Funk", "Dubstep", "Garage Rock", "Psybient"]

/-- The name of the genre with a number. -/
def genreNamed? (n : Nat) : Option String :=
  genreNames[n]?

/-- The genre that one entry of a tag gives: a number of the list, the letters for a remix or a
cover, or the name itself. -/
def genreOf (entry : String) : String :=
  if 3 < entry.utf8ByteSize then entry
  else match (Text.Numeral.natural? Text.Numeral.uint32Max entry).bind genreNamed? with
    | some name => name
    | none => if entry = "RX" then "Remix" else if entry = "CR" then "Cover" else entry

end Tags
end Fonoteca
