import BoxScore.Calendar

/- League seasons, oldest first. -/
namespace BoxScore

/-- A season runs from its first game day to its last, both included. -/
structure Season where
  name : String
  first : Date
  last : Date
  deriving DecidableEq, Repr

namespace Season

def all : List Season :=
  [⟨"1995-96", ⟨1995, 11, 3⟩, ⟨1996, 6, 16⟩⟩,
   ⟨"1996-97", ⟨1996, 11, 1⟩, ⟨1997, 6, 13⟩⟩,
   ⟨"1997-98", ⟨1997, 10, 31⟩, ⟨1998, 6, 14⟩⟩,
   ⟨"1998-99", ⟨1999, 2, 5⟩, ⟨1999, 6, 25⟩⟩,
   ⟨"1999-00", ⟨1999, 11, 2⟩, ⟨2000, 6, 19⟩⟩,
   ⟨"2000-01", ⟨2000, 10, 31⟩, ⟨2001, 6, 15⟩⟩,
   ⟨"2001-02", ⟨2001, 10, 30⟩, ⟨2002, 6, 12⟩⟩,
   ⟨"2002-03", ⟨2002, 10, 29⟩, ⟨2003, 6, 15⟩⟩,
   ⟨"2003-04", ⟨2003, 10, 28⟩, ⟨2004, 6, 15⟩⟩,
   ⟨"2004-05", ⟨2004, 11, 2⟩, ⟨2005, 6, 23⟩⟩,
   ⟨"2005-06", ⟨2005, 11, 1⟩, ⟨2006, 6, 20⟩⟩,
   ⟨"2006-07", ⟨2006, 10, 31⟩, ⟨2007, 6, 14⟩⟩,
   ⟨"2007-08", ⟨2007, 10, 30⟩, ⟨2008, 6, 17⟩⟩,
   ⟨"2008-09", ⟨2008, 10, 28⟩, ⟨2009, 6, 14⟩⟩,
   ⟨"2009-10", ⟨2009, 10, 27⟩, ⟨2010, 6, 17⟩⟩,
   ⟨"2010-11", ⟨2010, 10, 26⟩, ⟨2011, 6, 12⟩⟩,
   ⟨"2011-12", ⟨2011, 12, 25⟩, ⟨2012, 6, 21⟩⟩,
   ⟨"2012-13", ⟨2012, 10, 30⟩, ⟨2013, 6, 20⟩⟩,
   ⟨"2013-14", ⟨2013, 10, 29⟩, ⟨2014, 6, 15⟩⟩,
   ⟨"2014-15", ⟨2014, 10, 28⟩, ⟨2015, 6, 16⟩⟩,
   ⟨"2015-16", ⟨2015, 10, 27⟩, ⟨2016, 6, 19⟩⟩,
   ⟨"2016-17", ⟨2016, 10, 25⟩, ⟨2017, 6, 12⟩⟩,
   ⟨"2017-18", ⟨2017, 10, 17⟩, ⟨2018, 6, 8⟩⟩,
   ⟨"2018-19", ⟨2018, 10, 16⟩, ⟨2019, 6, 13⟩⟩,
   ⟨"2019-20", ⟨2019, 10, 22⟩, ⟨2020, 10, 11⟩⟩,
   ⟨"2020-21", ⟨2020, 12, 22⟩, ⟨2021, 7, 20⟩⟩,
   ⟨"2021-22", ⟨2021, 10, 19⟩, ⟨2022, 6, 16⟩⟩,
   ⟨"2022-23", ⟨2022, 10, 18⟩, ⟨2023, 6, 12⟩⟩,
   ⟨"2023-24", ⟨2023, 10, 17⟩, ⟨2024, 6, 17⟩⟩,
   ⟨"2024-25", ⟨2024, 10, 22⟩, ⟨2025, 6, 22⟩⟩]

def ofName? (name : String) : Option Season := all.find? (·.name == name)

def holds (s : Season) (d : Date) : Bool := s.first.le d && d.le s.last

def containing? (d : Date) : Option Season := all.find? (·.holds d)

end Season
end BoxScore
